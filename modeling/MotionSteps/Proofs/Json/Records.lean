import MotionSteps.Proofs.Json.Layouts
import MotionSteps.Proofs.Lists

/-!
# Records in every spelling

A slot says under which names a field of a record may be written, what may be written there and
when the field may be left out. `Renders` says that the members of an object write a record so:
in any order, among members of other names. Such an object is read as the record. An object that
writes one slot twice is not read at all.
-/

namespace MotionSteps.Json

variable {ρ σ : Type}

/-! ## Names -/

/-- The names of a field. -/
def Field.names (field : Field ρ) : List String :=
  field.name :: field.aliases

theorem Field.answersTo_iff {field : Field ρ} {key : String} :
    field.answersTo key = true ↔ key ∈ field.names := by
  simp [Field.answersTo, Field.names]

/-- The key of a member is one of some names, in whatever spelling. -/
def SpelledMember.IsNamed (member : SpelledMember) (names : List String) : Prop :=
  ∃ name ∈ names, Spells member.inside name.toList

theorem SpelledMember.isNamed_iff {member : SpelledMember} {key : String}
    (spells : Spells member.inside key.toList) {names : List String} :
    member.IsNamed names ↔ key ∈ names := by
  constructor
  · rintro ⟨name, listed, named⟩
    rwa [String.toList_injective (spells.unique named)]
  · exact fun listed => ⟨key, listed, spells⟩

namespace RecordForm

variable {form : RecordForm ρ} {key : String}

/-- No name belongs to two fields. -/
def Distinct (form : RecordForm ρ) : Prop :=
  (form.fields.flatMap Field.names).Nodup

instance (form : RecordForm ρ) : Decidable form.Distinct :=
  inferInstanceAs (Decidable (List.Nodup _))

theorem find?_of_mem_names (distinct : form.Distinct) {field : Field ρ}
    (listed : field ∈ form.fields) (named : key ∈ field.names) :
    form.fields.find? (·.answersTo key) = some field := by
  unfold Distinct at distinct
  generalize form.fields = fields at distinct listed
  induction fields with
  | nil => cases listed
  | cons other fields inductionHypothesis =>
      rw [List.flatMap_cons, List.nodup_append'] at distinct
      obtain ⟨-, distinctOthers, apart⟩ := distinct
      rcases List.mem_cons.mp listed with rfl | later
      · exact List.find?_cons_of_pos (Field.answersTo_iff.mpr named)
      · have unnamed : ¬other.answersTo key = true := fun answers =>
          apart (Field.answersTo_iff.mp answers) (List.mem_flatMap.mpr ⟨field, later, named⟩)
        rw [List.find?_cons, Bool.eq_false_iff.mpr unnamed]
        exact inductionHypothesis distinctOthers later

theorem find?_eq_none_of_names (unnamed : ∀ field ∈ form.fields, key ∉ field.names) :
    form.fields.find? (·.answersTo key) = none :=
  List.find?_eq_none.mpr fun field listed answers =>
    unnamed field listed (Field.answersTo_iff.mp answers)

/-- Two fields that share a name are one. -/
theorem eq_of_mem_names (distinct : form.Distinct) {field other : Field ρ}
    (listed : field ∈ form.fields) (listedOther : other ∈ form.fields)
    (named : key ∈ field.names) (namedOther : key ∈ other.names) : field = other :=
  Option.some.inj ((find?_of_mem_names distinct listed named).symm.trans
    (find?_of_mem_names distinct listedOther namedOther))

/-! ## One member -/

theorem member_of_names (distinct : form.Distinct) {field : Field ρ}
    (listed : field ∈ form.fields) (named : key ∈ field.names) {draft : Draft ρ}
    (fresh : field.name ∉ draft.given) :
    form.member draft key =
      .ok ((field.read draft.record).map fun record => ⟨field.name :: draft.given, record⟩) := by
  simp [member, find?_of_mem_names distinct listed named, fresh]

theorem member_of_unnamed (unnamed : ∀ field ∈ form.fields, key ∉ field.names) (draft : Draft ρ) :
    form.member draft key = .ok (Reader.skim.map fun _ => draft) := by
  simp [member, find?_eq_none_of_names unnamed]

/-- A member that was read gives a field that was not given before, or none at all. -/
theorem exists_of_member {draft next : Draft ρ} {reader : Reader (Draft ρ)}
    {text rest : List Char} (accepted : form.member draft key = .ok reader)
    (ran : reader.run text = .ok (next, rest)) :
    (∃ field ∈ form.fields, key ∈ field.names ∧ field.name ∉ draft.given ∧
        next.given = field.name :: draft.given ∧
        (field.read draft.record).run text = .ok (next.record, rest)) ∨
      (∀ field ∈ form.fields, key ∉ field.names) ∧ next = draft := by
  unfold member at accepted
  split at accepted
  · next field found =>
      split at accepted
      · cases accepted
      · next fresh =>
          cases accepted
          have answers : field.answersTo key = true := by simpa using List.find?_some found
          simp only [Reader.map] at ran
          split at ran
          · next inner =>
              cases ran
              exact .inl ⟨field, List.mem_of_find?_eq_some found, Field.answersTo_iff.mp answers,
                by simpa using fresh, rfl, inner⟩
          · cases ran
  · next none =>
      cases accepted
      simp only [Reader.map] at ran
      split at ran
      · cases ran
        exact .inr ⟨fun field listed named =>
          List.find?_eq_none.mp none field listed (Field.answersTo_iff.mpr named), rfl⟩
      · cases ran

end RecordForm

/-! ## Spellings of a record -/

/-- A field of a record as it is written: its names, what is written of the record under them,
and when it may be left out. -/
structure Slot (ρ : Type) where
  names : List String
  Spelled : ρ → List Token → Prop
  Omitted : ρ → Prop

/-- The members of an object write a record. Each slot is written at most once, and a member
that writes none may be anything. -/
structure Renders (slots : List (Slot ρ)) (record : ρ) (members : List SpelledMember) : Prop where
  keys : ∀ member ∈ members, ∃ key : String, Spells member.inside key.toList
  spelled : ∀ slot ∈ slots, ∀ member ∈ members, member.IsNamed slot.names →
    slot.Spelled record member.value
  values : ∀ member ∈ members, (∀ slot ∈ slots, ¬member.IsNamed slot.names) →
    IsValue member.value
  once : ∀ slot ∈ slots, members.Pairwise fun first second =>
    ¬(first.IsNamed slot.names ∧ second.IsNamed slot.names)
  omitted : ∀ slot ∈ slots, (∀ member ∈ members, ¬member.IsNamed slot.names) →
    slot.Omitted record

/-- The member of a key that is written without an escape. -/
def SpelledMember.plain (key : String) (value : List Token) : SpelledMember :=
  ⟨key.toList, value⟩

/-- Members whose keys need no escapes write a record if the keys are right. -/
theorem renders_of_plain {slots : List (Slot ρ)} {record : ρ} {pairs : List (String × List Token)}
    (plain : ∀ pair ∈ pairs, ArePlain pair.1.toList)
    (spelled : ∀ slot ∈ slots, ∀ pair ∈ pairs, pair.1 ∈ slot.names → slot.Spelled record pair.2)
    (values : ∀ pair ∈ pairs, (∀ slot ∈ slots, pair.1 ∉ slot.names) → IsValue pair.2)
    (once : ∀ slot ∈ slots, pairs.Pairwise fun first second =>
      ¬(first.1 ∈ slot.names ∧ second.1 ∈ slot.names))
    (omitted : ∀ slot ∈ slots, (∀ pair ∈ pairs, pair.1 ∉ slot.names) → slot.Omitted record) :
    Renders slots record (pairs.map fun pair => .plain pair.1 pair.2) := by
  have spells : ∀ pair ∈ pairs, Spells (SpelledMember.plain pair.1 pair.2).inside pair.1.toList :=
    fun pair listed => spells_of_arePlain (plain pair listed)
  have named : ∀ pair ∈ pairs, ∀ names,
      (SpelledMember.plain pair.1 pair.2).IsNamed names ↔ pair.1 ∈ names :=
    fun pair listed names => SpelledMember.isNamed_iff (spells pair listed)
  constructor
  · exact List.forall_mem_map.mpr fun pair listed => ⟨pair.1, spells pair listed⟩
  · exact fun slot listedSlot => List.forall_mem_map.mpr fun pair listed isNamed =>
      spelled slot listedSlot pair listed ((named pair listed _).mp isNamed)
  · exact List.forall_mem_map.mpr fun pair listed unnamed =>
      values pair listed fun slot listedSlot key =>
        unnamed slot listedSlot ((named pair listed _).mpr key)
  · refine fun slot listedSlot => List.pairwise_map.mpr ((once slot listedSlot).imp_of_mem ?_)
    exact fun listed listedOther apart both =>
      apart ⟨(named _ listed _).mp both.1, (named _ listedOther _).mp both.2⟩
  · exact fun slot listedSlot unnamed => omitted slot listedSlot fun pair listed key =>
      unnamed _ (List.mem_map_of_mem listed) ((named pair listed _).mpr key)

theorem areMembers_of_plain {pairs : List (String × List Token)}
    (plain : ∀ pair ∈ pairs, ArePlain pair.1.toList)
    (values : ∀ pair ∈ pairs, IsValue pair.2) :
    AreMembers (pairs.map fun pair => .plain pair.1 pair.2) where
  keys := List.forall_mem_map.mpr fun pair listed =>
    (spells_of_arePlain (plain pair listed)).isInside
  values := List.forall_mem_map.mpr values

/-- Two members of an object write one slot. -/
def GivesTwice (slots : List (Slot ρ)) (members : List SpelledMember) : Prop :=
  ∃ slot ∈ slots, ∃ first second : SpelledMember, [first, second].Sublist members ∧
    first.IsNamed slot.names ∧ second.IsNamed slot.names

/-- A field reads what its slot has of a record. `progress` is what has become of the record
when some fields are given. -/
structure Field.Fills (record : ρ) (progress : List String → ρ) (field : Field ρ)
    (slot : Slot ρ) : Prop where
  names_eq : field.names = slot.names
  takes : ∀ value, slot.Spelled record value → ∀ given,
    Takes (field.read (progress given)) value (progress (field.name :: given))
  optional : slot.Omitted record → field.required = false

theorem Field.fills_of {α : Type} {name : String} {aliases : List String} {required : Bool}
    {reader : Reader α} {put : ρ → α → ρ} {record : ρ} {progress : List String → ρ}
    {slot : Slot ρ} {held : α} (names : name :: aliases = slot.names)
    (takes : ∀ value, slot.Spelled record value → Takes reader value held)
    (goes : ∀ given, put (progress given) held = progress (name :: given))
    (optional : slot.Omitted record → required = false) :
    (Field.of name aliases required reader put).Fills record progress slot where
  names_eq := names
  takes value spelled given := goes given ▸ (takes value spelled).map _
  optional := optional

namespace RecordForm

variable {form : RecordForm ρ}

/-- A member that gives a field of a record what it has there, or gives no field. -/
def Fitting (form : RecordForm ρ) (progress : List String → ρ) (member : SpelledMember) : Prop :=
  ∃ key : String, Spells member.inside key.toList ∧
    ((∃ field ∈ form.fields, key ∈ field.names ∧ ∀ given,
        Takes (field.read (progress given)) member.value (progress (field.name :: given))) ∨
      (∀ field ∈ form.fields, key ∉ field.names) ∧ IsValue member.value)

/-- A fitting member is taken into a record to which its field was not given before. -/
theorem Fitting.exists_takes (distinct : form.Distinct) {progress : List String → ρ}
    {member : SpelledMember} (fitting : form.Fitting progress member) {before : List String}
    (fresh : ∀ field ∈ form.fields, member.IsNamed field.names → field.name ∉ before) :
    ∃ (key : String) (reader : Reader (Draft ρ)) (after : List String),
      Spells member.inside key.toList ∧
        form.member ⟨before, progress before⟩ key = .ok reader ∧
        Takes reader member.value ⟨after, progress after⟩ ∧
        ∀ name, name ∈ after ↔
          name ∈ before ∨
            ∃ field ∈ form.fields, member.IsNamed field.names ∧ field.name = name := by
  obtain ⟨key, spells, ⟨field, listed, named, takes⟩ | ⟨unnamed, isValue⟩⟩ := fitting
  · have isNamed : member.IsNamed field.names := (SpelledMember.isNamed_iff spells).mpr named
    refine ⟨key, _, field.name :: before, spells,
      member_of_names distinct listed named (fresh field listed isNamed),
      (takes before).map _, fun name => ?_⟩
    rw [List.mem_cons]
    constructor
    · rintro (same | was)
      · exact .inr ⟨field, listed, isNamed, same.symm⟩
      · exact .inl was
    · rintro (was | ⟨other, listedOther, namedOther, same⟩)
      · exact .inr was
      · have namedKey := (SpelledMember.isNamed_iff spells).mp namedOther
        obtain rfl := eq_of_mem_names distinct listedOther listed namedKey named
        exact .inl same.symm
  · refine ⟨key, _, before, spells, member_of_unnamed unnamed _, (Takes.skim isValue).map _,
      fun name => ⟨.inl, ?_⟩⟩
    rintro (was | ⟨other, listedOther, namedOther, -⟩)
    · exact was
    · have namedKey := (SpelledMember.isNamed_iff spells).mp namedOther
      exact absurd namedKey (unnamed other listedOther)

/-- One member after the other is read, and the fields are given that the members name. -/
theorem exists_readMembers (distinct : form.Distinct) {progress : List String → ρ}
    {members : List SpelledMember} (fitting : ∀ member ∈ members, form.Fitting progress member)
    (once : ∀ field ∈ form.fields, members.Pairwise fun first second =>
      ¬(first.IsNamed field.names ∧ second.IsNamed field.names))
    {before : List String} (fresh : ∀ field ∈ form.fields, ∀ member ∈ members,
      member.IsNamed field.names → field.name ∉ before)
    {first : Bool} {more : List Token} {text : List Char}
    (spaced : Spaced (membersTokens first members ++ more) text) :
    ∃ given rest, Spaced more rest ∧
      readMembers form.member first ⟨before, progress before⟩ text =
        .ok (⟨given, progress given⟩, rest) ∧
      (∀ name ∈ before, name ∈ given) ∧
      ∀ field ∈ form.fields, ∀ member ∈ members, member.IsNamed field.names →
        field.name ∈ given := by
  induction members generalizing before first text with
  | nil =>
      obtain ⟨rest, others, finished⟩ := spaced.nextKey_finished first
      exact ⟨before, rest, others, readMembers_of_finished finished, fun _ => id, nofun⟩
  | cons member members inductionHypothesis =>
      obtain ⟨fits, fittingOthers⟩ := List.forall_mem_cons.mp fitting
      obtain ⟨key, reader, after, spells, accepted, takes, given_iff⟩ :=
        Fitting.exists_takes distinct fits fun field listed =>
          fresh field listed member List.mem_cons_self
      obtain ⟨further, spacedMembers, ran⟩ := takes.readMember spells accepted spaced
      have freshOthers : ∀ field ∈ form.fields, ∀ later ∈ members,
          later.IsNamed field.names → field.name ∉ after := by
        intro field listed later listedLater namedLater was
        obtain before | ⟨other, listedOther, isNamed, same⟩ := (given_iff field.name).mp was
        · exact fresh field listed later (List.mem_cons_of_mem _ listedLater) namedLater before
        · -- Fields of one name are one field, which would be given twice.
          have own : other.name ∈ field.names := same ▸ List.mem_cons_self
          obtain rfl := eq_of_mem_names distinct listedOther listed List.mem_cons_self own
          exact (List.pairwise_cons.mp (once other listed)).1 later listedLater
            ⟨isNamed, namedLater⟩
      have onceOthers := fun field listed => (List.pairwise_cons.mp (once field listed)).2
      obtain ⟨given, rest, others, ranMembers, kept, gave⟩ :=
        inductionHypothesis fittingOthers onceOthers freshOthers spacedMembers
      refine ⟨given, rest, others, ran.trans ranMembers,
        fun name was => kept name ((given_iff name).mpr (.inl was)),
        fun field listed => List.forall_mem_cons.mpr ⟨fun isNamed => ?_, gave field listed⟩⟩
      exact kept field.name ((given_iff field.name).mpr (.inr ⟨field, listed, isNamed, rfl⟩))

/-- The fields of a form read what some slots have of a record, slot by slot. -/
structure Fills (form : RecordForm ρ) (slots : List (Slot ρ)) (record : ρ)
    (progress : List String → ρ) : Prop where
  distinct : form.Distinct
  fields : List.Forall₂ (Field.Fills record progress) form.fields slots
  blank : progress [] = form.blank
  complete : ∀ given, List.Forall₂ (fun field slot => field.name ∈ given ∨ slot.Omitted record)
    form.fields slots → progress given = record

variable {slots : List (Slot ρ)} {record : ρ} {progress : List String → ρ}
  {members : List SpelledMember}

theorem fitting_of_renders (fills : form.Fills slots record progress)
    (renders : Renders slots record members) :
    ∀ member ∈ members, form.Fitting progress member := by
  intro member listed
  obtain ⟨key, spells⟩ := renders.keys member listed
  refine ⟨key, spells, ?_⟩
  by_cases known : ∃ field ∈ form.fields, key ∈ field.names
  · obtain ⟨field, listedField, named⟩ := known
    obtain ⟨slot, listedSlot, fillsField⟩ := exists_mem_of_forall₂ fills.fields listedField
    have isNamed : member.IsNamed slot.names :=
      (SpelledMember.isNamed_iff spells).mpr (fillsField.names_eq ▸ named)
    exact .inl ⟨field, listedField, named,
      fillsField.takes _ (renders.spelled slot listedSlot member listed isNamed)⟩
  · have unnamed : ∀ field ∈ form.fields, key ∉ field.names :=
      fun field listedField named => known ⟨field, listedField, named⟩
    refine .inr ⟨unnamed, renders.values member listed fun slot listedSlot isNamed => ?_⟩
    obtain ⟨field, listedField, fillsField⟩ :=
      exists_mem_of_forall₂ fills.fields.flip listedSlot
    have named := (SpelledMember.isNamed_iff spells).mp isNamed
    exact unnamed field listedField (fillsField.names_eq ▸ named)

/-- An object that writes a record is read as the record. -/
theorem takes_of_renders (fills : form.Fills slots record progress)
    (renders : Renders slots record members) :
    Takes form.reader (objectTokens members) record := by
  intro more text _ spaced
  obtain ⟨behind, spacedMembers, read⟩ := Head.exists_read_object spaced
  have once : ∀ field ∈ form.fields, members.Pairwise fun first second =>
      ¬(first.IsNamed field.names ∧ second.IsNamed field.names) := by
    intro field listed
    obtain ⟨slot, listedSlot, fillsField⟩ := exists_mem_of_forall₂ fills.fields listed
    exact fillsField.names_eq ▸ renders.once slot listedSlot
  obtain ⟨given, rest, others, ran, -, gave⟩ := exists_readMembers fills.distinct
    (fitting_of_renders fills renders) once (fun _ _ _ _ _ => List.not_mem_nil) spacedMembers
  have settled : List.Forall₂ (fun field slot => (field.name ∈ given ∨ slot.Omitted record) ∧
      field.Fills record progress slot) form.fields slots := by
    refine List.forall₂_iff_zip.mpr ⟨fills.fields.length_eq, fun {field slot} paired => ?_⟩
    have fillsField := List.forall₂_zip fills.fields paired
    obtain ⟨listedField, listedSlot⟩ := List.of_mem_zip paired
    refine ⟨?_, fillsField⟩
    by_cases written : ∃ member ∈ members, member.IsNamed slot.names
    · obtain ⟨member, listed, isNamed⟩ := written
      exact .inl (gave field listedField member listed (fillsField.names_eq ▸ isNamed))
    · exact .inr (renders.omitted slot listedSlot fun member listed isNamed =>
        written ⟨member, listed, isNamed⟩)
  have same := fills.complete given (settled.imp fun _ _ => And.left)
  have nothingMissing : form.missing? ⟨given, record⟩ = none := by
    refine List.find?_eq_none.mpr fun field listedField => ?_
    obtain ⟨slot, -, was | omitted, fillsField⟩ := exists_mem_of_forall₂ settled listedField
    · simp [was]
    · simp [fillsField.optional omitted]
  refine ⟨rest, others, ?_⟩
  rw [fills.blank, same] at ran
  simp only [reader, RecordForm.read, read, readNamed, ran, nothingMissing]

end RecordForm

/-! ## Accepted records -/

/-- A reader of members that has gone on has read the member it stood in front of. -/
theorem exists_of_readMembers {member : σ → String → Except Cause (Reader σ)} {first : Bool}
    {state result : σ} {text rest : List Char}
    (unfinished : ∀ behind, nextKey first text ≠ .ok (.finished behind))
    (ran : readMembers member first state text = .ok (result, rest)) :
    ∃ key behind reader start next further,
      nextKey first text = .ok (.another key behind) ∧ member state key = .ok reader ∧
        readColon behind = .ok start ∧ reader.run start = .ok (next, further) ∧
        readMembers member false next further = .ok (result, rest) := by
  rw [readMembers] at ran
  split at ran
  · cases ran
  · next finished => exact absurd finished (unfinished _)
  next another =>
  split at ran
  · cases ran
  next accepted =>
  split at ran
  · cases ran
  next colon =>
  split at ran
  · cases ran
  next one =>
  exact ⟨_, _, _, _, _, _, another, accepted, colon, one, ran⟩

/-- The same in front of the tokens of a member, whose key spells what was read of it. -/
theorem exists_of_readMembers_cons {step : σ → String → Except Cause (Reader σ)}
    (skims : ∀ (state : σ) (key : String) (reader : Reader σ),
      step state key = .ok reader → reader.Skims) {member : SpelledMember}
    {members : List SpelledMember} (isInside : IsInside member.inside)
    (isValue : IsValue member.value) {first : Bool} {state result : σ} {more : List Token}
    {text rest : List Char} (spaced : Spaced (membersTokens first (member :: members) ++ more) text)
    (ran : readMembers step first state text = .ok (result, rest)) :
    ∃ key reader start next further,
      Spells member.inside key.toList ∧ step state key = .ok reader ∧
        Spaced (member.value ++ (membersTokens false members ++ more)) start ∧
        reader.run start = .ok (next, further) ∧
        Spaced (membersTokens false members ++ more) further ∧
        readMembers step false next further = .ok (result, rest) := by
  simp only [membersTokens, List.append_assoc, List.cons_append] at spaced
  have unfinished : ∀ behind, nextKey first text ≠ .ok (.finished behind) := by
    obtain ⟨_, -, turn⟩ := spaced.nextKey_eq
    exact fun behind => turn ▸ readKey_ne_finished
  obtain ⟨key, behind, reader, start, next, further, another, accepted, colon, one, others⟩ :=
    exists_of_readMembers unfinished ran
  obtain ⟨spelled, spacedColon⟩ := spaced.spells_of_nextKey isInside another
  obtain ⟨value, spacedValue, read⟩ := spacedColon.readColon_eq
  obtain rfl := Except.ok.inj (colon.symm.trans read)
  have spacedMembers := (skims state key reader accepted).spaced isValue
    (closes_membersTokens members more) spacedValue one
  exact ⟨key, reader, start, next, further, spelled, accepted, spacedValue, one, spacedMembers,
    others⟩

namespace RecordForm

variable {form : RecordForm ρ}

/-- When the members of an object were read, each field was given once at most, was not given
before and was read from what stands under its name. -/
theorem of_readMembers (distinct : form.Distinct)
    (skims : ∀ field ∈ form.fields, ∀ record, (field.read record).Skims)
    {members : List SpelledMember} (areMembers : AreMembers members) {draft result : Draft ρ}
    {first : Bool} {more : List Token} {text rest : List Char}
    (spaced : Spaced (membersTokens first members ++ more) text)
    (ran : readMembers form.member first draft text = .ok (result, rest))
    {field : Field ρ} (listed : field ∈ form.fields) :
    (∀ member ∈ members, member.IsNamed field.names →
        field.name ∉ draft.given ∧ ∃ record, Accepts (field.read record) member.value) ∧
      members.Pairwise fun first second =>
        ¬(first.IsNamed field.names ∧ second.IsNamed field.names) := by
  induction members generalizing draft first text with
  | nil => exact ⟨nofun, .nil⟩
  | cons member members inductionHypothesis =>
      obtain ⟨isInside, otherKeys⟩ := List.forall_mem_cons.mp areMembers.keys
      obtain ⟨isValue, otherValues⟩ := List.forall_mem_cons.mp areMembers.values
      obtain ⟨key, reader, start, next, further, spelled, accepted, spacedValue, one,
        spacedMembers, others⟩ := exists_of_readMembers_cons
          (fun _ _ _ => skims_member skims) isInside isValue spaced ran
      obtain ⟨once, apart⟩ := inductionHypothesis ⟨otherKeys, otherValues⟩ spacedMembers others
      have named : member.IsNamed field.names → key ∈ field.names :=
        (SpelledMember.isNamed_iff spelled).mp
      rcases exists_of_member accepted one with
        ⟨other, listedOther, namedOther, fresh, given, read⟩ | ⟨unnamed, same⟩
      · have isOther : member.IsNamed field.names → field = other := fun isNamed =>
          eq_of_mem_names distinct listed listedOther (named isNamed) namedOther
        refine ⟨List.forall_mem_cons.mpr ⟨fun isNamed => ?_, fun later listedLater isNamed => ?_⟩,
          List.pairwise_cons.mpr ⟨fun later listedLater both => ?_, apart⟩⟩
        · obtain rfl := isOther isNamed
          exact ⟨fresh, draft.record, _, start, _, further, closes_membersTokens members more,
            spacedValue, read⟩
        · obtain ⟨unused, accepts⟩ := once later listedLater isNamed
          rw [given] at unused
          exact ⟨fun was => unused (List.mem_cons_of_mem _ was), accepts⟩
        · -- The field is given by now, so that a later member could not give it.
          obtain rfl := isOther both.1
          have unused := (once later listedLater both.2).1
          exact unused (given ▸ List.mem_cons_self)
      · subst same
        refine ⟨List.forall_mem_cons.mpr ⟨fun isNamed => ?_, once⟩,
          List.pairwise_cons.mpr ⟨fun later _ both => ?_, apart⟩⟩
        · exact absurd (named isNamed) (unnamed field listed)
        · exact unnamed field listed (named both.1)

variable {slots : List (Slot ρ)} {members : List SpelledMember}

/-- Who accepts an object has accepted what stands under the names of each field. -/
theorem accepts_of_object (distinct : form.Distinct)
    (skims : ∀ field ∈ form.fields, ∀ record, (field.read record).Skims)
    (areMembers : AreMembers members) (accepts : Accepts form.reader (objectTokens members))
    {field : Field ρ} (listed : field ∈ form.fields) :
    (∀ member ∈ members, member.IsNamed field.names →
        ∃ record, Accepts (field.read record) member.value) ∧
      members.Pairwise fun first second =>
        ¬(first.IsNamed field.names ∧ second.IsNamed field.names) := by
  obtain ⟨more, text, result, rest, -, spaced, ran⟩ := accepts
  obtain ⟨behind, spacedMembers, isObject⟩ := Head.exists_read_object spaced
  simp only [reader, read, isObject, readNamed] at ran
  split at ran
  · cases ran
  · next ranMembers =>
      obtain ⟨once, apart⟩ :=
        of_readMembers distinct skims areMembers spacedMembers ranMembers listed
      exact ⟨fun member listedMember isNamed => (once member listedMember isNamed).2, apart⟩

/-- Who accepts the array form has accepted an item for each field that it came to. -/
theorem of_readPositional {fields : List (Field ρ)}
    (skims : ∀ field ∈ fields, ∀ record, (field.read record).Skims) {items : List (List Token)}
    (values : ∀ tokens ∈ items, IsValue tokens) {index : Nat} {record result : ρ}
    {more : List Token} {text rest : List Char}
    (spaced : Spaced (itemsTokens (index == 0) items ++ more) text)
    (ran : form.readPositional index record fields text = .ok (result, rest)) :
    ∀ pair ∈ fields.zip items, ∃ record, Accepts (pair.1.read record) pair.2 := by
  induction fields generalizing items index record text with
  | nil => exact List.forall_mem_nil _
  | cons field fields inductionHypothesis =>
      cases items with
      | nil => exact List.forall_mem_nil _
      | cons tokens items =>
          obtain ⟨one, others⟩ := List.forall_mem_cons.mp skims
          obtain ⟨isValue, otherValues⟩ := List.forall_mem_cons.mp values
          rw [itemsTokens, List.append_assoc, List.append_assoc] at spaced
          obtain ⟨start, spacedItem, another⟩ := spaced.nextItem_another (isValue.begins.append _)
          simp only [readPositional, another] at ran
          split at ran
          · cases ran
          · next behind read =>
              have closes := closes_itemsTokens items more
              have spacedItems : Spaced (itemsTokens (index + 1 == 0) items ++ more) behind :=
                (one record).spaced isValue closes spacedItem read
              exact List.forall_mem_cons.mpr
                ⟨⟨record, _, start, _, _, closes, spacedItem, read⟩,
                  inductionHypothesis others otherValues spacedItems ran⟩

theorem accepts_of_array (skims : ∀ field ∈ form.fields, ∀ record, (field.read record).Skims)
    {items : List (List Token)} (values : ∀ tokens ∈ items, IsValue tokens)
    (accepts : Accepts form.reader (arrayTokens items)) :
    ∀ pair ∈ form.fields.zip items, ∃ record, Accepts (pair.1.read record) pair.2 := by
  obtain ⟨more, text, result, rest, -, spaced, ran⟩ := accepts
  obtain ⟨behind, spacedItems, isArray⟩ := Head.exists_read_array spaced
  simp only [reader, read, isArray] at ran
  exact of_readPositional skims values spacedItems ran

/-- An object that writes a slot twice is not accepted. -/
theorem not_accepts_of_givesTwice (distinct : form.Distinct)
    (skims : ∀ field ∈ form.fields, ∀ record, (field.read record).Skims)
    (names : form.fields.map Field.names = slots.map Slot.names) (areMembers : AreMembers members)
    (twice : GivesTwice slots members) : ¬Accepts form.reader (objectTokens members) := by
  intro accepts
  obtain ⟨slot, listedSlot, first, second, inOrder, namedFirst, namedSecond⟩ := twice
  have listedNames : slot.names ∈ form.fields.map Field.names :=
    names ▸ List.mem_map_of_mem listedSlot
  obtain ⟨field, listed, same⟩ := List.mem_map.mp listedNames
  have apart := (accepts_of_object distinct skims areMembers accepts listed).2
  have both := List.pairwise_iff_forall_sublist.mp apart inOrder
  exact both ⟨same ▸ namedFirst, same ▸ namedSecond⟩

end RecordForm

end MotionSteps.Json
