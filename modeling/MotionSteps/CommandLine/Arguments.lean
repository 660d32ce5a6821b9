/-!
# Arguments of the command line

The words of a command line name a command, the file it reads and its options. An
option takes its value from its own word or from the next one, several options of
one letter may share a word, and behind `--` every word is a file. An option is
given once. Words that are not of this form are refused as a whole.
-/

namespace MotionSteps.CommandLine

/-- What is to be done. -/
inductive Command where
  | compile (source : String) (name output : Option String)
  | check (source : String)
  | ingest (source : String) (name output : Option String)
  deriving DecidableEq, Repr

/-- A command, and whether its work is to be logged. -/
structure Arguments where
  verbose : Bool
  command : Command
  deriving DecidableEq, Repr

/-- An option with a value. -/
inductive Key where
  | name
  | output
  deriving DecidableEq, Repr

/-- A part of a word. Only the last part can be an option without a value; its value is
the next word. -/
inductive Part where
  | verbose
  | option (key : Key) (value : Option (List Char))
  | file (path : List Char)
  deriving DecidableEq, Repr

/-- The parts of a word of one-letter options, behind its dash. -/
def shortParts (keys : Bool) : List Char → Option (List Part)
  | [] => some []
  | letter :: rest =>
      let option (key : Key) : Option (List Part) :=
        match rest with
        | [] => some [.option key none]
        | '=' :: value => some [.option key (some value)]
        | value => some [.option key (some value)]
      if letter == 'v' then (shortParts keys rest).map (Part.verbose :: ·)
      else if keys && letter == 'n' then option .name
      else if keys && letter == 'o' then option .output
      else none

/-- The parts of a word with a long option, behind its dashes. -/
def longParts (keys : Bool) (word : List Char) : Option (List Part) :=
  let spelled := String.ofList (word.takeWhile (· != '='))
  let value :=
    match word.dropWhile (· != '=') with
    | [] => none
    | _ :: value => some value
  if spelled == "verbose" then if value.isNone then some [.verbose] else none
  else if keys && spelled == "name" then some [.option .name value]
  else if keys && spelled == "output" then some [.option .output value]
  else none

/-- Whether a word gives options: it begins with a dash and is not the dash alone. -/
def isOption : List Char → Bool
  | '-' :: _ :: _ => true
  | _ => false

/-- The parts of a word. `keys` tells whether options with a value are known. -/
def parts (keys : Bool) (word : List Char) : Option (List Part) :=
  match word with
  | '-' :: '-' :: long => longParts keys long
  | '-' :: letter :: letters => shortParts keys (letter :: letters)
  | _ => some [.file word]

/-- What the words of a command gave so far. -/
structure Given where
  verbose : Bool := false
  name : Option String := none
  output : Option String := none
  files : List String := []

namespace Given

/-- Note the flag for logging, which may be given once. -/
def putVerbose (given : Given) : Option Given :=
  if given.verbose then none else some { given with verbose := true }

/-- Note the value of an option, which may be given once. A path is not empty. -/
def putValue (given : Given) (key : Key) (value : List Char) : Option Given :=
  match key with
  | .name =>
      if given.name.isSome then none else some { given with name := some (String.ofList value) }
  | .output =>
      if given.output.isSome || value.isEmpty then none
      else some { given with output := some (String.ofList value) }

/-- Note a file. -/
def putFile (given : Given) (path : List Char) : Option Given :=
  if path.isEmpty then none
  else some { given with files := given.files ++ [String.ofList path] }

/-- Note the parts of a word, and say which option still wants a value. -/
def putParts (given : Given) : List Part → Option (Given × Option Key)
  | [] => some (given, none)
  | .verbose :: rest => given.putVerbose.bind (putParts · rest)
  | .file path :: rest => (given.putFile path).bind (putParts · rest)
  | .option key (some value) :: rest => (given.putValue key value).bind (putParts · rest)
  | .option key none :: _ => some (given, some key)

end Given

/-- Read the words behind the name of a command. `wanting` is the option whose value
comes next. -/
def readWords (keys : Bool) (given : Given) (wanting : Option Key) :
    List (List Char) → Option Given
  | [] => if wanting.isSome then none else some given
  | word :: rest =>
      match wanting with
      | some key =>
          if isOption word then none
          else (given.putValue key word).bind (readWords keys · none rest)
      | none =>
          if word == ['-', '-'] then rest.foldlM Given.putFile given
          else
            match (parts keys word).bind given.putParts with
            | some (next, wanting) => readWords keys next wanting rest
            | none => none

/-- The command with a name, from the words behind that name. -/
def readCommand (verbose : Bool) (command : String) (words : List (List Char)) :
    Option Arguments := do
  let keys := command != "check"
  let given ← readWords keys {} none words
  let source ←
    match given.files with
    | [source] => some source
    | _ => none
  let verbose := verbose || given.verbose
  match command with
  | "compile" => some ⟨verbose, .compile source given.name given.output⟩
  | "check" => some ⟨verbose, .check source⟩
  | "ingest" => some ⟨verbose, .ingest source given.name given.output⟩
  | _ => none

/-- Read the words up to the name of the command: nothing but the flag for logging. -/
def readPreamble (given : Given) : List (List Char) → Option Arguments
  | [] => none
  | word :: rest =>
      if word == ['-', '-'] then none
      else if isOption word then
        match (parts false word).bind given.putParts with
        | some (next, _) => readPreamble next rest
        | none => none
      else readCommand given.verbose (String.ofList word) rest

namespace Arguments

/-- The arguments that a list of words gives. -/
def parse? (words : List String) : Option Arguments :=
  readPreamble {} (words.map String.toList)

end Arguments

end MotionSteps.CommandLine
