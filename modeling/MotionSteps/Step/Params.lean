import MotionSteps.Json.Printer
import MotionSteps.Number.Dyadic

/-!
# Parameters of a step

Each kind of step with parameters of its own has a record of them; the other kinds
pass on the object that their node holds. In a record a number that is whole is
written without a fraction, and the members stand in the record's order.
-/

namespace MotionSteps

/-- A place in the plane. -/
structure PlanePoint where
  x : Float
  y : Float
  deriving DecidableEq, Repr

/-- A place in space. -/
structure SpacePoint where
  x : Float
  y : Float
  z : Float
  deriving DecidableEq, Repr

/-- The sense in which an arc runs. -/
inductive Direction where
  | clockwise
  | counterclockwise
  deriving DecidableEq, Repr

/-- A move of one axis to a position. -/
structure MotionParams where
  axis : String
  position : Float
  speed : Float
  deriving DecidableEq, Repr

/-- A pause, in milliseconds. -/
structure WaitParams where
  delay : Int
  deriving DecidableEq, Repr

/-- A straight move to a place. -/
structure LinearMoveParams where
  target : SpacePoint
  speed : Float
  deriving DecidableEq, Repr

/-- A move of one axis by a distance. -/
structure RelativeMoveParams where
  axis : String
  distance : Float
  speed : Float
  deriving DecidableEq, Repr

/-- A move along an arc around a center. -/
structure CircularMoveParams where
  center : PlanePoint
  target : PlanePoint
  direction : Direction
  deriving DecidableEq, Repr

/-- A counted loop. -/
structure CounterParams where
  name : String
  first : Int
  target : Int
  increment : Int
  deriving DecidableEq, Repr

/-- A jump to a step. -/
structure GotoParams where
  target : String
  description : String
  deriving DecidableEq, Repr

/-- The parameters of a step. -/
inductive Params where
  | motion (record : MotionParams)
  | wait (record : WaitParams)
  | linearMove (record : LinearMoveParams)
  | relativeMove (record : RelativeMoveParams)
  | circularMove (record : CircularMoveParams)
  | counter (record : CounterParams)
  | goto (record : GotoParams)
  /-- The members of an object that is passed on as it was given. -/
  | passthrough (members : Json.Members)
  deriving Repr

/-- The text of a direction. -/
def Direction.name : Direction → String
  | .clockwise => "CW"
  | .counterclockwise => "CCW"

/-- A number of a record: an integer if it is whole and every smaller whole number is
exact, else a number with a fraction or an exponent. -/
def recordNumber (value : Float) : Json :=
  match Number.asWhole? value with
  | some whole => .number (.integer whole)
  | none => .number (.float value)

/-- An integer as JSON. -/
def recordInteger (value : Int) : Json :=
  .number (.integer value)

/-- A place in the plane as JSON. -/
def PlanePoint.toJson (point : PlanePoint) : Json :=
  .object [("X", recordNumber point.x), ("Y", recordNumber point.y)]

/-- A place in space as JSON. -/
def SpacePoint.toJson (point : SpacePoint) : Json :=
  .object [("X", recordNumber point.x), ("Y", recordNumber point.y), ("Z", recordNumber point.z)]

namespace Params

/-- No parameters. -/
def empty : Params :=
  .passthrough []

/-- The members of the JSON object that holds the parameters. -/
def members : Params → Json.Members
  | .motion record =>
      [("axis", .string record.axis), ("pos", recordNumber record.position),
        ("speed", recordNumber record.speed)]
  | .wait record => [("delay_ms", recordInteger record.delay)]
  | .linearMove record =>
      [("target", record.target.toJson), ("speed", recordNumber record.speed)]
  | .relativeMove record =>
      [("axis", .string record.axis), ("distance", recordNumber record.distance),
        ("speed", recordNumber record.speed)]
  | .circularMove record =>
      [("center", record.center.toJson), ("end", record.target.toJson),
        ("direction", .string record.direction.name)]
  | .counter record =>
      [("name", .string record.name), ("initial", recordInteger record.first),
        ("target", recordInteger record.target), ("increment", recordInteger record.increment)]
  | .goto record =>
      [("to", .string record.target), ("description", .string record.description)]
  | .passthrough members => members

/-- The parameters as JSON. -/
def toJson (params : Params) : Json :=
  .object params.members

end Params

end MotionSteps
