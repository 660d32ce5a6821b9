import MotionSteps.Step.Kind
import MotionSteps.Step.Params

/-!
# Step programs

A step program is a named sequence of steps, each of which names the step that runs
after it. Its JSON text is what the motion runner is given.
-/

namespace MotionSteps

/-- A step of a program. -/
structure Step where
  id : String
  kind : StepKind
  params : Params
  next : Option String
  deriving Repr

/-- A step program. -/
structure Sequence where
  name : String
  steps : List Step
  deriving Repr

/-- A text as JSON, null for none. -/
def Json.ofText? : Option String → Json
  | some text => .string text
  | none => .null

/-- A step as JSON. -/
def Step.toJson (step : Step) : Json :=
  .object [
    ("id", .string step.id),
    ("type", step.kind.toJson),
    ("params", step.params.toJson),
    ("next", .ofText? step.next)]

namespace Sequence

/-- The members of the JSON object that holds a program. -/
def members (sequence : Sequence) : Json.Members :=
  [("sequence_name", .string sequence.name),
    ("steps", .array (sequence.steps.map Step.toJson))]

/-- A program as JSON. -/
def toJson (sequence : Sequence) : Json :=
  .object sequence.members

/-- The text of a program. -/
def pretty (sequence : Sequence) : String :=
  sequence.toJson.pretty

/-- The first step with an identifier. -/
def step? (sequence : Sequence) (id : String) : Option Step :=
  sequence.steps.find? fun step => step.id == id

end Sequence

/-- The identifier of the step at a position, counted from zero: its number from one,
with two digits at least. -/
def stepId (position : Nat) : String :=
  let digits := Nat.toDigits 10 (position + 1)
  String.ofList (['n', 'o', 'd', 'e', '_'] ++ List.replicate (2 - digits.length) '0' ++ digits)

end MotionSteps
