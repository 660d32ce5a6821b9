import MotionSteps.Step.Document
import MotionSteps.Step.Kind
import MotionSteps.Step.Params

/-!
# Parameters out of a document

The fields of each kind of step, with the keys under which older and newer
documents hold them, and the parameters that a document resolves to. Whatever is
missing or wrong resolves to a default and is reported as an issue.
-/

namespace MotionSteps

namespace ParamField

/-- The axis that a move is about. -/
def axis : ParamField := .under "axis" ["axis"]

/-- The position to which an axis moves. -/
def position : ParamField := .under "position" ["target_position", "position", "pos"]

/-- The speed of a move. -/
def speed : ParamField := .under "speed" ["speed"]

/-- The length of a pause. -/
def delay : ParamField := .under "delay" ["delay_ms", "delay"]

/-- The first coordinate of the place to which a straight move leads. -/
def targetX : ParamField := .under "target.X" ["target.X", "target.x", "target_x"]

/-- The second coordinate of that place. -/
def targetY : ParamField := .under "target.Y" ["target.Y", "target.y", "target_y"]

/-- The third coordinate of that place. -/
def targetZ : ParamField := .under "target.Z" ["target.Z", "target.z", "target_z"]

/-- The distance by which an axis moves. -/
def distance : ParamField := .under "distance" ["distance", "dist"]

/-- The first coordinate of the center of an arc. -/
def centerX : ParamField := .under "center.X" ["center.X", "center.x", "center_x"]

/-- The second coordinate of the center of an arc. -/
def centerY : ParamField := .under "center.Y" ["center.Y", "center.y", "center_y"]

/-- The first coordinate of the place at which an arc ends. -/
def endX : ParamField := .under "end.X" ["end.X", "end.x", "end_x"]

/-- The second coordinate of the place at which an arc ends. -/
def endY : ParamField := .under "end.Y" ["end.Y", "end.y", "end_y"]

/-- The sense in which an arc runs. -/
def direction : ParamField := .under "direction" ["direction", "dir"]

/-- The name of a counter. -/
def counterName : ParamField := .under "name" ["name"]

/-- The value at which a counter starts. -/
def counterFirst : ParamField := .under "initial" ["initial"]

/-- The value at which a counter stops. -/
def counterTarget : ParamField := .under "target" ["target"]

/-- The value by which a counter moves on. -/
def counterIncrement : ParamField := .under "increment" ["increment"]

/-- The step to which a jump leads. -/
def jumpTarget : ParamField := .under "to" ["to", "label", "jump_target", "to_step"]

/-- A remark on a jump. -/
def description : ParamField := .under "description" ["description"]

end ParamField

/-- The direction that a text means, in any capitals and between any blanks. -/
def Direction.ofText? (text : String) : Option Direction :=
  let folded := Text.uppercase (Text.trim text)
  if folded == "CW" then some .clockwise
  else if folded == "CCW" then some .counterclockwise
  else none

namespace Json.Members

/-- The direction of an arc. A text that means no direction is reported and taken for
clockwise. -/
def direction (members : Members) : Resolved Direction := do
  let text ← members.text .direction Direction.clockwise.name
  match Direction.ofText? text with
  | some found => pure found
  | none => ⟨.clockwise, [.invalidField ParamField.direction.name (.string text)]⟩

/-- The parameters of a step of a kind, out of the members of its document. -/
def params (members : Members) : StepKind → Resolved Params
  | .motion => do
      let axis ← members.text .axis ""
      let position ← members.number .position 0
      let speed ← members.number .speed 0
      pure (.motion ⟨axis, position, speed⟩)
  | .wait => do
      let delay ← members.integer .delay 0
      pure (.wait ⟨delay⟩)
  | .linearMove => do
      let x ← members.number .targetX 0
      let y ← members.number .targetY 0
      let z ← members.number .targetZ 0
      let speed ← members.number .speed 0
      pure (.linearMove ⟨⟨x, y, z⟩, speed⟩)
  | .relativeMove => do
      let axis ← members.text .axis ""
      let distance ← members.number .distance 0
      let speed ← members.number .speed 0
      pure (.relativeMove ⟨axis, distance, speed⟩)
  | .circularMove => do
      let centerX ← members.number .centerX 0
      let centerY ← members.number .centerY 0
      let endX ← members.number .endX 0
      let endY ← members.number .endY 0
      let direction ← members.direction
      pure (.circularMove ⟨⟨centerX, centerY⟩, ⟨endX, endY⟩, direction⟩)
  | .counter => do
      let name ← members.text .counterName ""
      let first ← members.integer .counterFirst 0
      let target ← members.integer .counterTarget 0
      let increment ← members.integer .counterIncrement 1
      pure (.counter ⟨name, first, target, increment⟩)
  | .goto => do
      let target ← members.text .jumpTarget ""
      let description ← members.text .description ""
      pure (.goto ⟨target, description⟩)
  | .start | .finish | .io | .other _ =>
      pure (.passthrough ((members.object? ["params"]).getD []))

end Json.Members

namespace StepKind

/-- The parameters of a step without a usable document: every field has its default. -/
def defaultParams (kind : StepKind) (issue : Issue) : Resolved Params :=
  let resolved := Json.Members.params [] kind
  ⟨resolved.value, issue :: resolved.issues⟩

/-- The parameters that a document gives to a step of a kind. -/
def extract (kind : StepKind) : Option Json → Resolved Params
  | none => kind.defaultParams .missing
  | some (.object members) => Json.Members.params members kind
  | some found => kind.defaultParams (.malformed (.notObject found))

/-- The parameters that the text of a document gives to a step of a kind. A blank
text is no document. -/
def extractText (kind : StepKind) (document : Option String) : Resolved Params :=
  match document with
  | none => kind.extract none
  | some raw =>
      let text := Text.trim raw
      if text.isEmpty then kind.extract none
      else
        match Json.parse text with
        | .ok value => kind.extract (some value)
        | .error error => kind.defaultParams (.malformed (.unreadable error))

end StepKind

end MotionSteps
