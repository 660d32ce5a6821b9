import MotionSteps.Text.Uppercase.Table

/-!
# Uppercase text

Type labels are compared in capitals. `uppercase` is the full Unicode mapping
without language-specific rules, under which one character may become several
(`ß` becomes `SS`); `uppercaseAscii` moves the letters `a` to `z` alone and
leaves every other character as it is.
-/

namespace MotionSteps.Text

namespace Uppercase

/-- The uppercase image of a code point, itself when it has no other. -/
def codes (code : Nat) : List Nat :=
  match expansions.find? fun entry => entry.1 == code with
  | some entry => entry.2
  | none =>
      match shifts.find? fun run => run.covers code with
      | some run => [run.image code]
      | none => [code]

/-- The uppercase image of a character. -/
def chars (c : Char) : List Char :=
  if c.toNat < 0x80 then [c.toUpper] else (codes c.toNat).map Char.ofNat

/-- An ASCII character has a one-character image. -/
theorem chars_of_ascii {c : Char} (ascii : c.toNat < 0x80) : chars c = [c.toUpper] := by
  simp [chars, ascii]

end Uppercase

/-- The uppercase image of a text, character by character. -/
def uppercaseChars (text : List Char) : List Char :=
  text.flatMap Uppercase.chars

/-- A text in capitals. -/
def uppercase (text : String) : String :=
  String.ofList (uppercaseChars text.toList)

@[simp] theorem toList_uppercase (text : String) :
    (uppercase text).toList = uppercaseChars text.toList := by
  simp [uppercase]

/-- A text whose ASCII letters are in capitals. -/
def uppercaseAscii (text : String) : String :=
  String.ofList (text.toList.map Char.toUpper)

end MotionSteps.Text
