import MotionSteps.Json.Reader.Record

/-!
# What readers yield

A reader yields values with a property if every value does that it takes off any text. The
property goes up with the reader: from the items to an array, from the fields to a record,
whether its members come under their keys or in order. What a field may rely on is that it is
given a record with the property; the keys that no field answers to leave the record alone.
-/

namespace MotionSteps.Json

variable {α β σ ρ : Type}

/-- Every value that a reader takes off a text has a property. -/
def Reader.Yields (holds : α → Prop) (reader : Reader α) : Prop :=
  ∀ ⦃text : List Char⦄ ⦃value : α⦄ ⦃rest : List Char⦄,
    reader.run text = .ok (value, rest) → holds value

/-- What an item reader yields of each item holds of every item of an array. -/
theorem forall_mem_of_readItems {item : Reader α} {holds : α → Prop} (each : item.Yields holds)
    {first : Bool} {reversed items : List α} {text rest : List Char}
    (ran : readItems item first reversed text = .ok (items, rest))
    (before : ∀ value ∈ reversed, holds value) : ∀ value ∈ items, holds value := by
  fun_induction readItems item first reversed text with
  | case1 => cases ran
  | case2 first reversed text behind turn =>
      cases ran
      intro value listed
      exact before value (List.mem_reverse.mp listed)
  | case3 => cases ran
  | case4 first reversed text start turn value behind one shorter inductionHypothesis =>
      exact inductionHypothesis ran (List.forall_mem_cons.mpr ⟨each one, before⟩)

/-- What every member keeps, the members of an object keep. -/
theorem invariant_of_readMembers (holds : σ → Prop)
    {member : σ → String → Except Cause (Reader σ)}
    (each : ∀ (state : σ) (key : String) (reader : Reader σ), holds state →
      member state key = .ok reader → reader.Yields holds)
    {first : Bool} {state result : σ} {text rest : List Char}
    (ran : readMembers member first state text = .ok (result, rest)) (before : holds state) :
    holds result := by
  fun_induction readMembers member first state text with
  | case1 => cases ran
  | case2 =>
      cases ran
      exact before
  | case3 => cases ran
  | case4 => cases ran
  | case5 => cases ran
  | case6 first state text key behind turn value accepted start colon next behindValue one
      shorter inductionHypothesis =>
      exact inductionHypothesis ran (each state key value before accepted one)

namespace Reader.Yields

variable {holds : α → Prop} {kept : β → Prop} {reader : Reader α}

theorem map {f : α → β} (yields : reader.Yields holds)
    (carried : ∀ value, holds value → kept (f value)) : (reader.map f).Yields kept := by
  intro text result rest ran
  simp only [Reader.map] at ran
  split at ran
  · next value behind inner =>
      cases ran
      exact carried value (yields inner)
  · cases ran

/-- Of a reader that is not looked into, nothing is known. -/
theorem any (reader : Reader α) : reader.Yields fun _ => True :=
  fun _ _ _ _ => trivial

theorem array (yields : reader.Yields holds) :
    (Reader.array reader).Yields fun values => ∀ value ∈ values, holds value := by
  intro text values rest ran
  simp only [Reader.array] at ran
  split at ran
  · cases ran
  · exact forall_mem_of_readItems yields ran (List.forall_mem_nil _)
  · cases ran

theorem of_parse (yields : reader.Yields holds) {text : String} {value : α}
    (parsed : reader.parse text = .ok value) : holds value := by
  simp only [parse] at parsed
  split at parsed
  · cases parsed
  · next found rest ran =>
      split at parsed
      · cases parsed
        exact yields ran
      · cases parsed

end Reader.Yields

/-! ## Records -/

/-- A field leaves a property of the record as it is, whatever its value. -/
def Field.Keeps (holds : ρ → Prop) (field : Field ρ) : Prop :=
  ∀ record : ρ, holds record → (field.read record).Yields holds

theorem Field.keeps_of {holds : ρ → Prop} {good : α → Prop} {name : String}
    {aliases : List String} {required : Bool} {reader : Reader α} {put : ρ → α → ρ}
    (yields : reader.Yields good)
    (carried : ∀ (record : ρ) (value : α), holds record → good value → holds (put record value)) :
    (Field.of name aliases required reader put).Keeps holds :=
  fun record before => yields.map fun value => carried record value before

namespace RecordForm

variable {form : RecordForm ρ} {holds : ρ → Prop}

theorem yields_member (each : ∀ field ∈ form.fields, field.Keeps holds) {draft : Draft ρ}
    {key : String} {reader : Reader (Draft ρ)} (before : holds draft.record)
    (accepted : form.member draft key = .ok reader) :
    reader.Yields fun draft => holds draft.record := by
  unfold member at accepted
  split at accepted
  · next field found =>
      split at accepted
      · cases accepted
      · cases accepted
        exact (each field (List.mem_of_find?_eq_some found) _ before).map fun _ after => after
  · cases accepted
    exact (Reader.Yields.any Reader.skim).map fun _ _ => before

theorem holds_of_readNamed (each : ∀ field ∈ form.fields, field.Keeps holds)
    (blank : holds form.blank) {text rest : List Char} {record : ρ}
    (ran : form.readNamed text = .ok (record, rest)) : holds record := by
  unfold readNamed at ran
  split at ran
  · cases ran
  · next draft behind members =>
      have after : holds draft.record :=
        invariant_of_readMembers _ (fun _ _ _ => yields_member each) members blank
      split at ran
      · cases ran
      · cases ran
        exact after

theorem holds_of_readPositional {fields : List (Field ρ)}
    (each : ∀ field ∈ fields, field.Keeps holds) {index : Nat} {record result : ρ}
    (before : holds record) {text rest : List Char}
    (ran : form.readPositional index record fields text = .ok (result, rest)) :
    holds result := by
  induction fields generalizing index record text with
  | nil =>
      unfold readPositional at ran
      split at ran
      · cases ran
      · cases ran
        exact before
  | cons field fields inductionHypothesis =>
      obtain ⟨one, others⟩ := List.forall_mem_cons.mp each
      unfold readPositional at ran
      split at ran
      · cases ran
      · split at ran
        · cases ran
        · cases ran
          exact before
      · split at ran
        · cases ran
        · next next behind value =>
            exact inductionHypothesis others (one record before value) ran

/-- What the blank record has and every field keeps, every record has that is read. -/
theorem yields_reader (each : ∀ field ∈ form.fields, field.Keeps holds)
    (blank : holds form.blank) : form.reader.Yields holds := by
  intro text record rest ran
  simp only [reader, read] at ran
  split at ran
  · cases ran
  · exact holds_of_readNamed each blank ran
  · exact holds_of_readPositional each blank ran
  · cases ran

end RecordForm

end MotionSteps.Json
