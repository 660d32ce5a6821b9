import MotionSteps.Json.Reader.Value
import MotionSteps.Number.Decimal
import MotionSteps.Number.Dyadic
import MotionSteps.Text.Blank

/-!
# Fields of a parameter document

A parameter document is loosely structured: a field may stand under one of several
keys, in nested objects, wrapped together with its unit, and as a text that spells
its number. Resolving a field never fails. It yields the first candidate that
converts, or the default, and an issue when candidates are there and none of them
converts.
-/

namespace MotionSteps

/-- Why a document is no object of parameters. -/
inductive DocumentFault where
  | unreadable (error : Json.ReadError)
  | notObject (found : Json)
  deriving Repr

/-- The wording of a fault. -/
def DocumentFault.description : DocumentFault → String
  | .unreadable error => error.message
  | .notObject found => "expected a JSON object, found " ++ found.kindName

/-- What was wrong with the parameters of a step. -/
inductive Issue where
  /-- There is no document. -/
  | missing
  /-- There is a document, but no object of parameters in it. -/
  | malformed (fault : DocumentFault)
  /-- Candidates for a field are there, and none of them converts. -/
  | invalidField (field : String) (found : Json)
  deriving Repr

/-- A value together with the issues met on the way to it, in order. -/
structure Resolved (α : Type) where
  value : α
  issues : List Issue
  deriving Repr

namespace Resolved

instance : Monad Resolved where
  pure value := ⟨value, []⟩
  bind first next :=
    let second := next first.value
    ⟨second.value, first.issues ++ second.issues⟩

@[simp] theorem value_pure {α : Type} (value : α) : (pure value : Resolved α).value = value := rfl

@[simp] theorem issues_pure {α : Type} (value : α) : (pure value : Resolved α).issues = [] := rfl

@[simp] theorem value_bind {α β : Type} (first : Resolved α) (next : α → Resolved β) :
    (first >>= next).value = (next first.value).value := rfl

@[simp] theorem issues_bind {α β : Type} (first : Resolved α) (next : α → Resolved β) :
    (first >>= next).issues = first.issues ++ (next first.value).issues := rfl

end Resolved

/-- The keys that lead from the members of a document to a value. -/
abbrev Path := List String

/-- The parts of a text between its dots, of which there is always one. -/
def splitDots : List Char → List (List Char)
  | [] => [[]]
  | c :: rest =>
      if c == '.' then [] :: splitDots rest
      else
        match splitDots rest with
        | [] => [[c]]
        | part :: parts => (c :: part) :: parts

/-- The path that a text with dots between its keys spells. -/
def Path.ofText (text : String) : Path :=
  (splitDots text.toList).map String.ofList

/-- A field and the paths at which its candidates stand, in order of preference. -/
structure ParamField where
  name : String
  paths : List Path
  deriving Repr

/-- A field whose candidates stand at the spelled paths. -/
def ParamField.under (name : String) (paths : List String) : ParamField :=
  ⟨name, paths.map Path.ofText⟩

namespace Json

/-- The value at the end of a path. -/
def Members.follow? (members : Members) : Path → Option Json
  | [] => none
  | [key] => members.get? key
  | key :: path =>
      match members.get? key with
      | some (.object inner) => follow? inner path
      | _ => none

/-- The value at the end of a path, where null counts as absent. -/
def Members.present? (members : Members) (path : Path) : Option Json :=
  match members.follow? path with
  | some .null => none
  | found => found

/-- The object at the end of a path. -/
def Members.object? (members : Members) (path : Path) : Option Members :=
  (members.present? path).bind members?

/-- A value that is wrapped together with its unit, without the wrapper. -/
def unwrapped : Json → Json
  | .object members => (Members.get? members "value").getD (.object members)
  | other => other

/-- The finite number that a value stands for: a number, or a text that spells one. -/
def asNumber? : Json → Option Float
  | .number value => if value.toFloat.isFinite then some value.toFloat else none
  | .string text => MotionSteps.Number.ofText? (Text.trimChars text.toList)
  | _ => none

/-- The text that a scalar stands for. -/
def asText? : Json → Option String
  | .string text => some text
  | .number value => some value.text
  | .bool value => some (if value then "true" else "false")
  | _ => none

namespace Members

/-- The first candidate of a field that converts, or the default. When candidates are
there and none of them converts, the first one is reported, with its wrapper. -/
def resolve {α : Type} (members : Members) (field : ParamField) (convert : Json → Option α)
    (default : α) : Resolved α :=
  let candidates := field.paths.filterMap members.present?
  match candidates.findSome? fun candidate => convert candidate.unwrapped with
  | some value => pure value
  | none =>
      match candidates.head? with
      | some first => ⟨default, [.invalidField field.name first]⟩
      | none => pure default

/-- A number field. -/
def number (members : Members) (field : ParamField) (default : Float) : Resolved Float :=
  members.resolve field asNumber? default

/-- An integral field: the fraction of a number is dropped. -/
def integer (members : Members) (field : ParamField) (default : Int) : Resolved Int :=
  members.resolve field (fun found => found.asNumber?.map MotionSteps.Number.toInteger) default

/-- A text field. -/
def text (members : Members) (field : ParamField) (default : String) : Resolved String :=
  members.resolve field asText? default

end Members

end Json

end MotionSteps
