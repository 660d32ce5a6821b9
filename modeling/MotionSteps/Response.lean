import MotionSteps.Failure
import MotionSteps.Json.Reader.Record
import MotionSteps.Json.Reader.Value
import MotionSteps.Program.Basic
import MotionSteps.Settings
import MotionSteps.Step.Extraction

/-!
# Generated responses

A text-generation service answers with a step program somewhere in free text, and
in a looser form than the runner takes: parameters may lie flat, identifiers and
the names of following steps may be missing. This module finds the object in the
text and turns it into a program in the proper form.
-/

namespace MotionSteps

namespace Response

/-- The part of a text from the first opening brace to the last closing brace behind
it. -/
def objectChars (text : List Char) : List Char :=
  ((text.dropWhile (· != '{')).reverse.dropWhile (· != '}')).reverse

/-- The outermost braces of a text and what is between them. -/
def object (text : String) : Except Failure String :=
  match objectChars text.toList with
  | [] => .error .noObject
  | span => .ok (String.ofList span)

/-- A step of a response. -/
structure GeneratedStep where
  id : String
  typeLabel : String
  params : Option Json
  next : Option String
  deriving Repr

/-- A program of a response. -/
structure GeneratedSequence where
  name : Option String
  steps : List GeneratedStep
  deriving Repr

/-- The number of containers that may be open inside the parameters of a step: the
program, its list of steps and the step are open around them. -/
def paramsDepth : Nat := Json.maxDepth - 3

/-- The form of a step of a response in JSON. -/
def GeneratedStep.form : Json.RecordForm GeneratedStep where
  name := "GeneratedStep"
  fields := [
    .of "id" [] false .string fun step id => { step with id },
    .of "type" [] true .string fun step typeLabel => { step with typeLabel },
    .of "params" [] false (.valueOrNull paramsDepth) fun step params => { step with params },
    .of "next" [] false .stringOrNull fun step next => { step with next }]
  blank := ⟨"", "", none, none⟩

/-- The form of a program of a response in JSON. -/
def GeneratedSequence.form : Json.RecordForm GeneratedSequence where
  name := "GeneratedSequence"
  fields := [
    .of "sequence_name" [] false .stringOrNull fun sequence name => { sequence with name },
    .of "steps" [] false (.array GeneratedStep.form.reader) fun sequence steps =>
      { sequence with steps }]
  blank := ⟨none, []⟩

/-- The parameters of a generated step. The kinds with a record of their own resolve
its fields; the others keep an object as it was given. -/
def GeneratedStep.resolvedParams (step : GeneratedStep) (kind : StepKind) : Params :=
  match kind, step.params with
  | .start, params | .finish, params | .io, params | .other _, params =>
      .passthrough ((params.bind Json.members?).getD [])
  | _, params => (kind.extract params).value

/-- The identifier of a generated step at a position. A blank one is filled in. -/
def GeneratedStep.resolvedId (step : GeneratedStep) (position : Nat) : String :=
  if (Text.trim step.id).isEmpty then stepId position else step.id

/-- The identifiers of the generated steps, in order. -/
def GeneratedSequence.ids (sequence : GeneratedSequence) : List String :=
  sequence.steps.zipIdx.map fun (step, position) => step.resolvedId position

/-- A generated program in the proper form. A step that does not name the step after it
is followed by the one behind it; a blank name gives way to that of the settings. -/
def GeneratedSequence.toSequence (sequence : GeneratedSequence) (settings : Settings) :
    Sequence :=
  let ids := sequence.ids
  { name :=
      match sequence.name with
      | some name => if (Text.trim name).isEmpty then settings.sequenceName else name
      | none => settings.sequenceName
    steps := sequence.steps.zipIdx.map fun (step, position) =>
      let kind := StepKind.ofLabel step.typeLabel
      { id := step.resolvedId position
        kind
        params := step.resolvedParams kind
        next := step.next.or ids[position + 1]? } }

/-- The program in a response. -/
def ingest (text : String) (settings : Settings) : Except Failure Sequence := do
  let span ← object text
  let generated ← (GeneratedSequence.form.reader.parse span).mapError .response
  return generated.toSequence settings

end Response

end MotionSteps
