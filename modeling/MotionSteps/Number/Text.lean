import MotionSteps.Number.Shortest

/-!
# Numbers as text

The text of a binary64 number keeps a mark that it is not an integer: a fraction
of at least one digit, or an exponent. Its digits are the shortest that read back,
and it is positional while the leading digit's exponent lies between
`positionalLow` and `positionalHigh`.
-/

namespace MotionSteps.Number

/-- The least exponent of a leading digit that is written positionally. -/
def positionalLow : Int := -5

/-- The greatest exponent of a leading digit that is written positionally. -/
def positionalHigh : Int := 15

/-- Decimal digits of a natural number. -/
def naturalText (value : Nat) : String :=
  String.ofList (Nat.toDigits 10 value)

/-- Decimal digits of an integer, after a minus sign when it is negative. -/
def integerText (value : Int) : String :=
  if value < 0 then "-" ++ naturalText value.natAbs else naturalText value.natAbs

/-- The text of the decimal whose digits are `digits` and whose leading digit has
the exponent `leading`. -/
def decimalChars (digits : List Char) (leading : Int) : List Char :=
  if positionalLow ≤ leading ∧ leading ≤ positionalHigh then
    if leading < 0 then
      '0' :: '.' :: (List.replicate ((-leading).toNat - 1) '0' ++ digits)
    else
      let places := leading.toNat + 1
      let whole := digits.take places
      let fraction := digits.drop places
      whole ++ List.replicate (places - whole.length) '0' ++
        '.' :: (if fraction.isEmpty then ['0'] else fraction)
  else
    let tail := digits.drop 1
    digits.take 1 ++ (if tail.isEmpty then [] else '.' :: tail) ++
      'e' :: (if leading < 0 then '-' else '+') :: Nat.toDigits 10 leading.natAbs

/-- The text of a finite number. -/
def text (number : Float) : String :=
  let dyadic := Dyadic.ofFloat number
  let magnitude :=
    if dyadic.significand = 0 then ['0', '.', '0']
    else
      let decimal := Decimal.shortest dyadic
      let digits := Nat.toDigits 10 decimal.digits
      decimalChars digits (decimal.exponent + Int.ofNat digits.length - 1)
  String.ofList (if dyadic.negative then '-' :: magnitude else magnitude)

/-- A whole number keeps a zero after the point. -/
example : text 1000 = "1000.0" := by decide +kernel

/-- From `10 ^ 16` on the text has an exponent. -/
example : text 1.5e16 = "1.5e+16" := by decide +kernel

end MotionSteps.Number
