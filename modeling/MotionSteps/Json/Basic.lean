/-!
# JSON values

A number keeps whether it was written as an integer, because an integer is written
back without a fraction. An object is the list of its members: a record that the
program writes lists them in the record's own order, an object that was read lists
them in ascending order of key, each key once.
-/

namespace MotionSteps

/-- A number as it stands in a document. -/
inductive Json.Number where
  | integer (value : Int)
  | float (value : Float)
  deriving DecidableEq, Repr

/-- A JSON value. -/
inductive Json where
  | null
  | bool (value : Bool)
  | number (value : Json.Number)
  | string (value : String)
  | array (items : List Json)
  | object (members : List (String × Json))
  deriving Repr, Inhabited

namespace Json

/-- The members of an object, in order. -/
abbrev Members := List (String × Json)

namespace Members

/-- Put a member at its place in ascending order of key. The key that is already
there gets the new value, so the last of several members with one key counts. -/
def insert (key : String) (value : Json) : Members → Members
  | [] => [(key, value)]
  | (first, held) :: rest =>
      if key < first then (key, value) :: (first, held) :: rest
      else if key = first then (key, value) :: rest
      else (first, held) :: insert key value rest

/-- The value of the member called `key`. -/
def get? (members : Members) (key : String) : Option Json :=
  (members.find? fun member => member.1 == key).map Prod.snd

/-- A member that was just put is found. -/
theorem get?_insert_self (key : String) (value : Json) (members : Members) :
    (members.insert key value).get? key = some value := by
  induction members with
  | nil => simp [insert, get?]
  | cons member rest inductionHypothesis =>
      obtain ⟨first, held⟩ := member
      by_cases before : key < first
      · simp [insert, before, get?]
      · by_cases same : key = first
        · simp [insert, same, get?]
        · have differs : (first == key) = false := by
            simpa using fun equal => same equal.symm
          simpa [insert, before, same, get?, differs] using inductionHypothesis

/-- Putting a member leaves the values of all other keys alone. -/
theorem get?_insert_of_ne {key other : String} (value : Json) (members : Members)
    (differs : other ≠ key) : (members.insert key value).get? other = members.get? other := by
  have absent : (key == other) = false := by simpa using differs.symm
  induction members with
  | nil => simp [insert, get?, absent]
  | cons member rest inductionHypothesis =>
      obtain ⟨first, held⟩ := member
      by_cases before : key < first
      · simp [insert, before, get?, absent]
      · by_cases same : key = first
        · subst same
          simp [insert, get?, absent]
        · by_cases here : (first == other) = true
          · simp [insert, before, same, get?, here]
          · simpa [insert, before, same, get?, here] using inductionHypothesis

end Members

/-- What kind of value a document is, as a message names it. -/
def kindName : Json → String
  | .null => "null"
  | .bool _ => "a boolean"
  | .number _ => "a number"
  | .string _ => "a string"
  | .array _ => "an array"
  | .object _ => "an object"

/-- The members of an object. -/
def members? : Json → Option Members
  | .object members => some members
  | _ => none

/-- The value of a number as a binary64 number. -/
def Number.toFloat : Number → Float
  | .integer value => Float.ofInt value
  | .float value => value

end Json

end MotionSteps
