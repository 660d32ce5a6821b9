import MotionSteps.Json.Printer
import MotionSteps.Text.Quoted

/-!
# What is wrong with a document

A reader stops at the first fault of a text. Its cause is one of a fixed list;
its place is kept as the number of bytes that lie behind it, which every step of
a reader knows without counting, and becomes a line and a column only when the
whole text is at hand again.
-/

namespace MotionSteps.Json

/-- The beginning of a value: a scalar, or the bracket that opens a container. -/
inductive Head where
  | null
  | bool (value : Bool)
  | number (value : Number)
  | string (value : String)
  | array
  | object
  deriving Repr

/-- The beginning of a value as a message describes it. -/
def Head.description : Head → String
  | .null => "null"
  | .bool value => if value then "boolean `true`" else "boolean `false`"
  | .number (.integer value) => "integer `" ++ MotionSteps.Number.integerText value ++ "`"
  | .number (.float value) => "floating point `" ++ MotionSteps.Number.text value ++ "`"
  | .string value => "string " ++ Text.quoted value
  | .array => "sequence"
  | .object => "map"

/-- What a field asks of its value. -/
inductive Expectation where
  | string
  | array
  | number
  | integer
  | record (name : String)
  deriving DecidableEq, Repr

/-- An expectation as a message names it. -/
def Expectation.description : Expectation → String
  | .string => "a string"
  | .array => "a sequence"
  | .number => "f64"
  | .integer => "i64"
  | .record name => "struct " ++ name

/-- Why a text is not the document that was asked for. -/
inductive Cause where
  | endInValue
  | endInArray
  | endInObject
  | endInString
  | noValue
  | misspelledLiteral
  | keyNotString
  | noColon
  | noCommaInArray
  | noCommaInObject
  | trailingComma
  | trailingCharacters
  | malformedNumber
  | numberTooLarge
  | unknownEscape
  | loneSurrogate
  | unfinishedSurrogate
  | rawControl
  | tooDeep
  | missingField (name : String)
  | repeatedField (name : String)
  | tooFewItems (found : Nat) (record : String) (fields : Nat)
  | wrongKind (found : Head) (expected : Expectation)
  | integerTooLarge (found : Int)
  deriving Repr

/-- The wording of a cause. -/
def Cause.description : Cause → String
  | .endInValue => "EOF while parsing a value"
  | .endInArray => "EOF while parsing a list"
  | .endInObject => "EOF while parsing an object"
  | .endInString => "EOF while parsing a string"
  | .noValue => "expected value"
  | .misspelledLiteral => "expected ident"
  | .keyNotString => "key must be a string"
  | .noColon => "expected `:`"
  | .noCommaInArray => "expected `,` or `]`"
  | .noCommaInObject => "expected `,` or `\x7d`"
  | .trailingComma => "trailing comma"
  | .trailingCharacters => "trailing characters"
  | .malformedNumber => "invalid number"
  | .numberTooLarge => "number out of range"
  | .unknownEscape => "invalid escape"
  | .loneSurrogate => "lone leading surrogate in hex escape"
  | .unfinishedSurrogate => "unexpected end of hex escape"
  | .rawControl => "control character (\\u0000-\\u001F) found while parsing a string"
  | .tooDeep => "recursion limit exceeded"
  | .missingField name => "missing field `" ++ name ++ "`"
  | .repeatedField name => "duplicate field `" ++ name ++ "`"
  | .tooFewItems found record fields =>
      "invalid length " ++ MotionSteps.Number.naturalText found ++ ", expected struct " ++ record ++
        " with " ++ MotionSteps.Number.naturalText fields ++
        (if fields = 1 then " element" else " elements")
  | .wrongKind found expected =>
      "invalid type: " ++ found.description ++ ", expected " ++ expected.description
  | .integerTooLarge found =>
      "invalid value: integer `" ++ MotionSteps.Number.integerText found ++ "`, expected i64"

/-- A cause and the number of bytes of the text behind the place it is reported at. -/
structure Fault where
  cause : Cause
  bytesBehind : Nat
  deriving Repr

/-- The number of bytes that encode a text. -/
def byteCount (text : List Char) : Nat :=
  text.foldl (fun count c => count + c.utf8Size) 0

namespace Fault

/-- A fault in front of the rest of a text. -/
def before (cause : Cause) (rest : List Char) : Fault :=
  ⟨cause, byteCount rest⟩

/-- A fault at the first byte of the rest of a text: that byte counts as read. At
the end of the text there is none. -/
def on (cause : Cause) (rest : List Char) : Fault :=
  ⟨cause, byteCount rest - 1⟩

end Fault

/-- A place in a text: the line, from one, and the bytes of it that lie before. -/
structure Position where
  line : Nat
  column : Nat
  deriving DecidableEq, Repr

/-- The place behind the first `offset` bytes of a text, counted on from a place. -/
def Position.advance (position : Position) (offset : Nat) : List Char → Position
  | [] => position
  | c :: rest =>
      if c.utf8Size ≤ offset then
        let next : Position :=
          if c == '\n' then ⟨position.line + 1, 0⟩ else ⟨position.line, position.column + c.utf8Size⟩
        next.advance (offset - c.utf8Size) rest
      else ⟨position.line, position.column + offset⟩

/-- A cause with its place in the text. -/
structure ReadError where
  cause : Cause
  position : Position
  deriving Repr

/-- The fault of a text with its place. -/
def Fault.locate (fault : Fault) (text : List Char) : ReadError :=
  ⟨fault.cause, Position.advance ⟨1, 0⟩ (byteCount text - fault.bytesBehind) text⟩

/-- The message of a fault. -/
def ReadError.message (failure : ReadError) : String :=
  failure.cause.description ++ " at line " ++
    MotionSteps.Number.naturalText failure.position.line ++ " column " ++
    MotionSteps.Number.naturalText failure.position.column

end MotionSteps.Json
