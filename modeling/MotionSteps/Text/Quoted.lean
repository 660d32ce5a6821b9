import MotionSteps.Text.Quoted.Hidden

/-!
# Quoted text in messages

A message shows a piece of user text between double quotes so that it stays on
one line and no character in it is invisible: quotes, backslashes and the
commonest controls are escaped by a letter, every other character that is not
shown as itself by its code point in hexadecimal.
-/

namespace MotionSteps.Text

/-- Whether a character is not shown as itself in a quoted text. -/
def isHidden (c : Char) : Bool :=
  let code := c.toNat
  code < 0x20 ||
    (0x7F ≤ code && Hidden.ranges.any fun range => range.1 ≤ code && code ≤ range.2)

/-- A character as it stands in a quoted text. -/
def quotedChars (c : Char) : List Char :=
  if c == '\x00' then ['\\', '0']
  else if c == '\t' then ['\\', 't']
  else if c == '\r' then ['\\', 'r']
  else if c == '\n' then ['\\', 'n']
  else if c == '"' || c == '\\' then ['\\', c]
  else if isHidden c then '\\' :: 'u' :: '{' :: (Nat.toDigits 16 c.toNat ++ ['}'])
  else [c]

/-- A text between quotes, on one line. -/
def quoted (text : String) : String :=
  String.ofList ('"' :: (text.toList.flatMap quotedChars ++ ['"']))

/-- A plain label is quoted as it is. -/
example : quoted "Pick 1" = "\"Pick 1\"" := by decide +kernel

/-- A filler is a letter, but one that nothing is seen of. -/
example : isHidden '\u3164' = true := by decide +kernel

/-- A halfwidth sound mark is seen beside the letter before it. -/
example : isHidden '\uff9e' = false := by decide +kernel

/-- A line break does not end the line of the message. -/
example : quoted "a\nb" = "\"a\\nb\"" := by decide +kernel

end MotionSteps.Text
