import MotionSteps.Json.Reader.Skim

/-!
# Reading records

A record is a value of a type with known fields. Its text is an object, whose
members may come in any order, or an array, whose items stand for the fields in
their declared order. Keys that no field answers to are skimmed. A field that is
missing keeps the value it has in the blank record unless it is required.
-/

namespace MotionSteps.Json

/-- A field of a record: its names, whether it must be given, and how its value is
read into the record. -/
structure Field (ρ : Type) where
  name : String
  aliases : List String
  required : Bool
  read : ρ → Reader ρ

/-- Whether a key names the field. -/
def Field.answersTo {ρ : Type} (field : Field ρ) (key : String) : Bool :=
  key == field.name || field.aliases.contains key

/-- The form of a record: what messages call it, its fields in order, and the record
whose fields are all left out. -/
structure RecordForm (ρ : Type) where
  name : String
  fields : List (Field ρ)
  blank : ρ

namespace RecordForm

variable {ρ : Type}

/-- A record under construction with the names of the fields already given. -/
structure Draft (ρ : Type) where
  given : List String
  record : ρ

/-- The reader of the value under a key. A field may be given once. -/
def member (form : RecordForm ρ) (draft : Draft ρ) (key : String) :
    Except Cause (Reader (Draft ρ)) :=
  match form.fields.find? (·.answersTo key) with
  | some field =>
      if draft.given.contains field.name then .error (.repeatedField field.name)
      else .ok ((field.read draft.record).map fun record => ⟨field.name :: draft.given, record⟩)
  | none => .ok (Reader.skim.map fun _ => draft)

/-- The first required field that was not given. -/
def missing? (form : RecordForm ρ) (draft : Draft ρ) : Option (Field ρ) :=
  form.fields.find? fun field => field.required && !draft.given.contains field.name

/-- Read the members of a record whose brace was read. -/
def readNamed (form : RecordForm ρ) (text : List Char) : Except Fault (ρ × List Char) :=
  match readMembers form.member true ⟨[], form.blank⟩ text with
  | .error fault => .error fault
  | .ok (draft, rest) =>
      match form.missing? draft with
      | some field => .error (.before (.missingField field.name) rest)
      | none => .ok (draft.record, rest)

/-- The end of the array of a record whose fields were all read. -/
def readEnd (text : List Char) : Except Fault (List Char) :=
  match skipBlanks text with
  | [] => .error (.before .endInArray [])
  | c :: rest =>
      if c == ']' then .ok rest
      else if c == ',' then
        match skipBlanks rest with
        | ']' :: behind => .error (.on .trailingComma (']' :: behind))
        | behind => .error (.on .trailingCharacters behind)
      else .error (.on .trailingCharacters (c :: rest))

/-- Read the items of a record in array form, `index` of which were read. -/
def readPositional (form : RecordForm ρ) (index : Nat) (record : ρ) :
    List (Field ρ) → List Char → Except Fault (ρ × List Char)
  | [], text =>
      match readEnd text with
      | .error fault => .error fault
      | .ok rest => .ok (record, rest)
  | field :: fields, text =>
      match nextItem (index == 0) text with
      | .error fault => .error fault
      | .ok (.finished rest) =>
          match (field :: fields).findIdx? (·.required) with
          | some ahead =>
              .error (.before (.tooFewItems (index + ahead) form.name form.fields.length) rest)
          | none => .ok (record, rest)
      | .ok (.another start) =>
          match (field.read record).run start with
          | .error fault => .error fault
          | .ok (next, rest) => readPositional form (index + 1) next fields rest

/-- Read a record in either form. -/
def read (form : RecordForm ρ) (text : List Char) : Except Fault (ρ × List Char) :=
  match Head.read text with
  | .error fault => .error fault
  | .ok (.object, rest) => form.readNamed rest
  | .ok (.array, rest) => form.readPositional 0 form.blank form.fields rest
  | .ok (head, rest) => .error (wrongKind (.record form.name) head rest)

theorem readNamed_shorter {form : RecordForm ρ} {text rest : List Char} {record : ρ}
    (ran : form.readNamed text = .ok (record, rest)) : rest.length < text.length := by
  unfold readNamed at ran
  split at ran
  · cases ran
  · next members =>
      split at ran
      · cases ran
      · cases ran
        exact readMembers_shorter members

theorem readEnd_shorter {text rest : List Char} (ran : readEnd text = .ok rest) :
    rest.length < text.length := by
  unfold readEnd at ran
  split at ran
  · cases ran
  · next seen =>
      split at ran
      · cases ran
        exact length_lt_of_skipBlanks_eq_cons seen
      · split at ran
        · split at ran <;> cases ran
        · cases ran

theorem readPositional_shorter {form : RecordForm ρ} {index : Nat} {record result : ρ}
    {fields : List (Field ρ)} {text rest : List Char}
    (ran : form.readPositional index record fields text = .ok (result, rest)) :
    rest.length < text.length := by
  induction fields generalizing index record text with
  | nil =>
      unfold readPositional at ran
      split at ran
      · cases ran
      · next ended =>
          cases ran
          exact readEnd_shorter ended
  | cons field fields inductionHypothesis =>
      unfold readPositional at ran
      split at ran
      · cases ran
      · next turn =>
          split at ran
          · cases ran
          · cases ran
            exact nextItem_finished_shorter turn
      · next start turn =>
          split at ran
          · cases ran
          · next value =>
              have := inductionHypothesis ran
              have := (field.read record).shorter value
              have := nextItem_another_le turn
              omega

/-- The reader of a record. -/
def reader (form : RecordForm ρ) : Reader ρ where
  run := form.read
  shorter := by
    intro text record rest ran
    unfold read at ran
    split at ran
    · cases ran
    · next head =>
        have := Head.read_shorter head
        have := readNamed_shorter ran
        omega
    · next head =>
        have := Head.read_shorter head
        have := readPositional_shorter ran
        omega
    · cases ran

end RecordForm

/-- A field whose value is read by a reader of its own and put into the record. -/
def Field.of {ρ α : Type} (name : String) (aliases : List String) (required : Bool)
    (reader : Reader α) (put : ρ → α → ρ) : Field ρ where
  name := name
  aliases := aliases
  required := required
  read record := reader.map (put record)

end MotionSteps.Json
