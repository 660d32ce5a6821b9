import MotionSteps.CommandLine

/-!
# The program

The command line over the files of the system.
-/

namespace MotionSteps.CommandLine

/-- A system error in the program's words. -/
def FileFault.ofError : IO.Error → FileFault
  | .noFileOrDirectory .. => .notFound
  | error => .other (toString error)

/-- The files of the system. -/
def systemFiles : FileAccess IO where
  read path := do
    try
      let bytes ← IO.FS.readBinFile path
      return match String.fromUTF8? bytes with
        | some text => .ok text
        | none => .error .notText
    catch error => return .error (.ofError error)
  write path text := do
    try
      IO.FS.writeFile path text
      return .ok ()
    catch error => return .error (.ofError error)

end MotionSteps.CommandLine

/-- Run the command line and end with the code of its outcome. -/
def main (words : List String) : IO UInt32 := do
  let outcome ← MotionSteps.CommandLine.run MotionSteps.CommandLine.systemFiles words
  (← IO.getStdout).putStr outcome.stdout
  (← IO.getStderr).putStr outcome.stderr
  return outcome.code.toUInt32
