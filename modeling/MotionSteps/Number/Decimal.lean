/-!
# Numbers read from text fields

A parameter may hold its number as a text. Such a text is a decimal with an
optional sign, digits on at least one side of an optional point, and an optional
exponent. It stands for the binary64 number nearest to it; nothing is read from a
text whose number is beyond the finite range.
-/

namespace MotionSteps.Number

/-- The natural number that a list of digit characters spells. -/
def ofDigits (digits : List Char) : Nat :=
  digits.foldl (fun value digit => value * 10 + (digit.toNat - '0'.toNat)) 0

/-- An optional sign in front of a text: whether it is a minus, and what follows. -/
def splitSign : List Char → Bool × List Char
  | '-' :: rest => (true, rest)
  | '+' :: rest => (false, rest)
  | rest => (false, rest)

/-- The exponent that a text spells; a text with none of the form is refused. -/
def exponent? : List Char → Option Int
  | [] => some 0
  | mark :: rest =>
      if mark == 'e' || mark == 'E' then
        let (negative, digits) := splitSign rest
        if digits.isEmpty || !digits.all Char.isDigit then none
        else if negative then some (-Int.ofNat (ofDigits digits))
        else some (Int.ofNat (ofDigits digits))
      else none

/-- The decimal number nearest to `significand · 10 ^ exponent`. -/
def nearest (significand : Nat) (exponent : Int) : Float :=
  Float.ofScientific significand (exponent < 0) exponent.natAbs

/-- The finite number that a decimal text spells. -/
def ofText? (text : List Char) : Option Float :=
  let (negative, unsigned) := splitSign text
  let whole := unsigned.takeWhile Char.isDigit
  let behind := unsigned.dropWhile Char.isDigit
  let (fraction, behind) :=
    match behind with
    | '.' :: rest => (rest.takeWhile Char.isDigit, rest.dropWhile Char.isDigit)
    | rest => ([], rest)
  if whole.isEmpty && fraction.isEmpty then none
  else
    match exponent? behind with
    | none => none
    | some exponent =>
        let magnitude := nearest (ofDigits (whole ++ fraction)) (exponent - fraction.length)
        let number := if negative then -magnitude else magnitude
        if number.isFinite then some number else none

/-- A point needs a digit on one side only. -/
example : ofText? ['.', '5'] = some 0.5 := by decide +kernel

/-- A text beyond the finite range spells no number. -/
example : ofText? ['1', 'e', '4', '0', '0'] = none := by decide +kernel

end MotionSteps.Number
