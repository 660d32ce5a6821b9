import MotionSteps.Graph.Basic
import MotionSteps.Number.Text

/-!
# The log

On the side a run can tell how far its work has come: what it loaded, compiled, diagnosed,
ingested and wrote. The log goes where the message of a failed run goes, in front of it. A run logs
when the flag for it is given; that its environment may ask for another level is left out.
-/

namespace MotionSteps.CommandLine

/-- What is logged of a run. -/
inductive Event where
  | loaded (nodes connections dropped : Nat)
  | compiled (steps : Nat) (entry : Option NodeId) (name : String)
  | diagnosed (steps warnings errors : Nat)
  | ingested (steps : Nat) (name : String)
  | written (path : String)
  deriving DecidableEq, Repr

namespace Event

/-- A number that an event is about, behind its name. -/
def count (name : String) (value : Nat) : String :=
  " " ++ name ++ "=" ++ Number.naturalText value

/-- The line about an event: its level, its words and its values. The time and the part of the
program that it comes from, which a log may add, are left out, and so is colour. -/
def line : Event → String
  | .loaded nodes connections dropped =>
      "DEBUG loaded project" ++ count "nodes" nodes ++ count "connections" connections ++
        count "dropped" dropped ++ "\n"
  | .compiled steps entry name =>
      let start :=
        match entry with
        | some id => "Some(NodeId(" ++ Number.naturalText id.index ++ "))"
        | none => "None"
      "DEBUG compiled sequence" ++ count "steps" steps ++ " entry=" ++ start ++ " name=" ++ name ++
        "\n"
  | .diagnosed steps warnings errors =>
      "DEBUG diagnostics complete" ++ count "steps" steps ++ count "warnings" warnings ++
        count "errors" errors ++ "\n"
  | .ingested steps name =>
      "DEBUG ingested generated sequence" ++ count "steps" steps ++ " name=" ++ name ++ "\n"
  | .written path => "INFO sequence written path=" ++ path ++ "\n"

end Event

end MotionSteps.CommandLine
