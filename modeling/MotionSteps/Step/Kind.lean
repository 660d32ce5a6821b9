import MotionSteps.Json.Reader.Head
import MotionSteps.Text.Blank
import MotionSteps.Text.Uppercase

/-!
# Kinds of steps

A node of a project carries a type label in the wording of the editor. Labels that
differ only in capitals and in blanks at the ends mean the same, several labels
mean one kind of step, and a label that means none of the known kinds is a kind of
its own, named by the label in capitals.
-/

namespace MotionSteps

/-- What a step does. -/
inductive StepKind where
  | start
  | finish
  | motion
  | wait
  | io
  | linearMove
  | relativeMove
  | circularMove
  | counter
  | goto
  /-- A kind the program knows nothing about, by its name in capitals. -/
  | other (name : String)
  deriving DecidableEq, Repr

/-- Whether a node may be entered and left by connections. -/
structure Ports where
  input : Bool
  output : Bool
  deriving DecidableEq, Repr

namespace StepKind

/-- The name of a kind in a step program. -/
def name : StepKind → String
  | .start => "START"
  | .finish => "END"
  | .motion => "MOTION"
  | .wait => "WAIT"
  | .io => "IO"
  | .linearMove => "LINEAR_MOVE"
  | .relativeMove => "REL_MOVE"
  | .circularMove => "CIRCULAR_MOVE"
  | .counter => "COUNTER"
  | .goto => "GOTO"
  | .other name => name

/-- The labels that mean a known kind, in capitals. -/
def aliases : List (String × StepKind) := [
  ("START", .start),
  ("END", .finish),
  ("MOTION", .motion),
  ("M", .motion),
  ("ABS MOVE", .motion),
  ("ABS_MOVE", .motion),
  ("WAIT", .wait),
  ("IO", .io),
  ("SET DO", .io),
  ("SET_DO", .io),
  ("CHECK DI", .io),
  ("CHECK_DI", .io),
  ("GOTO", .goto),
  ("JUMP", .goto),
  ("JUMP IMPORT", .goto),
  ("JUMP EXPORT", .goto),
  ("LINEAR MOVE", .linearMove),
  ("LINEAR_MOVE", .linearMove),
  ("REL MOVE", .relativeMove),
  ("REL_MOVE", .relativeMove),
  ("CIRCULAR MOVE", .circularMove),
  ("CIRCULAR_MOVE", .circularMove),
  ("ARC", .circularMove),
  ("COUNTER", .counter),
  ("LOOP COUNTER", .counter)]

/-- The form in which labels are compared. -/
def foldLabel (label : String) : String :=
  Text.uppercase (Text.trim label)

/-- The kind that a label means. -/
def ofLabel (label : String) : StepKind :=
  let folded := foldLabel label
  match aliases.find? fun entry => entry.1 == folded with
  | some entry => entry.2
  | none => .other folded

/-- Whether the program knows what a step of this kind does. -/
def isKnown : StepKind → Bool
  | .other _ => false
  | _ => true

/-- The kinds that begin and end a program carry no parameters of their own. -/
def isTerminal : StepKind → Bool
  | .start | .finish => true
  | _ => false

/-- The ports of a node of this kind: nothing leads into a start, nothing out of an
end. -/
def ports : StepKind → Ports
  | .start => ⟨false, true⟩
  | .finish => ⟨true, false⟩
  | _ => ⟨true, true⟩

/-- A kind as JSON: its name. -/
def toJson (kind : StepKind) : Json :=
  .string kind.name

/-- The reader of a kind: a string, taken as a label. -/
def reader : Json.Reader StepKind :=
  Json.Reader.string.map ofLabel

end StepKind

/-- The ports of a node that carries a label. The two ends of a jump between
programs are half nodes; every other node has the ports of its kind. The labels of
half nodes are told apart with their ASCII letters in capitals. -/
def Ports.ofLabel (label : String) : Ports :=
  let folded := Text.uppercaseAscii (Text.trim label)
  if folded == "JUMP IMPORT" then ⟨true, false⟩
  else if folded == "JUMP EXPORT" then ⟨false, true⟩
  else (StepKind.ofLabel label).ports

end MotionSteps
