import MotionSteps.Failure
import MotionSteps.Json.Reader.Record
import MotionSteps.Text.Blank

/-!
# Compile settings

What the caller decides about a step program: the name it is written under.
-/

namespace MotionSteps

/-- The settings of a compilation. -/
structure Settings where
  sequenceName : String := "Sequence"
  deriving DecidableEq, Repr

namespace Settings

/-- The form of settings in JSON. The name may be spelled in either of two ways. -/
def form : Json.RecordForm Settings where
  name := "CompileOptions"
  fields := [
    .of "sequenceName" ["sequence_name"] false .string fun settings name =>
      { settings with sequenceName := name }]
  blank := {}

/-- Read settings. A blank text means the settings that hold when none are given. -/
def parse (text : String) : Except Failure Settings :=
  if (Text.trim text).isEmpty then .ok {}
  else (form.reader.parse text).mapError .settings

/-- Settings as JSON. -/
def toJson (settings : Settings) : Json :=
  .object [("sequenceName", .string settings.sequenceName)]

end Settings

end MotionSteps
