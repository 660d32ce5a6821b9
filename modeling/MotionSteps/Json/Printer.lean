import MotionSteps.Json.Basic
import MotionSteps.Number.Text

/-!
# JSON text of a value

One printer serves both layouts of the program: the compact one, which writes no
blanks, and the indented one, which gives each item a line of its own, two spaces
deeper than the bracket around it. An empty array or object is closed at once in
either layout.
-/

namespace MotionSteps.Json

/-- The blanks between the tokens of a text: `gap depth` stands before an item at
that depth and before the bracket that closes a container there. -/
structure Layout where
  gap : Nat → List Char
  colon : List Char

namespace Layout

/-- No blanks at all. -/
def compact : Layout where
  gap _ := []
  colon := [':']

/-- An item a line, indented by two spaces for each container around it. -/
def indented : Layout where
  gap depth := '\n' :: List.replicate (2 * depth) ' '
  colon := [':', ' ']

end Layout

/-- One digit of a two-digit hexadecimal number below 32. -/
def controlDigits (code : Nat) : List Char :=
  [if code < 16 then '0' else '1', (Nat.digitChar (code % 16))]

/-- A character as it stands between the quotes of a JSON text. Quotes, backslashes
and the controls below the space are escaped; everything else is written as it is. -/
def escaped (c : Char) : List Char :=
  if c == '"' then ['\\', '"']
  else if c == '\\' then ['\\', '\\']
  else if c == '\x08' then ['\\', 'b']
  else if c == '\x0c' then ['\\', 'f']
  else if c == '\n' then ['\\', 'n']
  else if c == '\r' then ['\\', 'r']
  else if c == '\t' then ['\\', 't']
  else if c.toNat < 0x20 then '\\' :: 'u' :: '0' :: '0' :: controlDigits c.toNat
  else [c]

/-- A text as a JSON string. -/
def stringChars (text : String) : List Char :=
  '"' :: (text.toList.flatMap escaped ++ ['"'])

/-- The text of a number: an integer has neither fraction nor exponent. JSON has no text for
a number that is not finite, which is written as null. -/
def Number.text : Number → String
  | .integer value => MotionSteps.Number.integerText value
  | .float value => if value.isFinite then MotionSteps.Number.text value else "null"

mutual

/-- The characters of a value that stands at a depth of nesting. -/
def chars (layout : Layout) (depth : Nat) : Json → List Char
  | .null => ['n', 'u', 'l', 'l']
  | .bool true => ['t', 'r', 'u', 'e']
  | .bool false => ['f', 'a', 'l', 's', 'e']
  | .number value => value.text.toList
  | .string value => stringChars value
  | .array [] => ['[', ']']
  | .array (item :: items) =>
      '[' :: (layout.gap (depth + 1) ++ chars layout (depth + 1) item ++
        itemsChars layout depth items)
  | .object [] => ['{', '}']
  | .object ((key, value) :: members) =>
      '{' :: (layout.gap (depth + 1) ++ stringChars key ++ layout.colon ++
        chars layout (depth + 1) value ++ membersChars layout depth members)

/-- The items of an array behind its first, and the bracket that closes it. -/
def itemsChars (layout : Layout) (depth : Nat) : List Json → List Char
  | [] => layout.gap depth ++ [']']
  | item :: items =>
      ',' :: (layout.gap (depth + 1) ++ chars layout (depth + 1) item ++
        itemsChars layout depth items)

/-- The members of an object behind its first, and the brace that closes it. -/
def membersChars (layout : Layout) (depth : Nat) : List (String × Json) → List Char
  | [] => layout.gap depth ++ ['}']
  | (key, value) :: members =>
      ',' :: (layout.gap (depth + 1) ++ stringChars key ++ layout.colon ++
        chars layout (depth + 1) value ++ membersChars layout depth members)

end

/-- The text of a value on one line, without blanks. -/
def compact (value : Json) : String :=
  String.ofList (chars .compact 0 value)

/-- The text of a value, indented. -/
def pretty (value : Json) : String :=
  String.ofList (chars .indented 0 value)

/-- The members stand in the order in which the object lists them. -/
example :
    (Json.object [("b", .array [.number (.integer 1), .null]), ("a", .object [])]).compact =
      "\x7b\"b\":[1,null],\"a\":\x7b\x7d\x7d" := by
  decide +kernel

end MotionSteps.Json
