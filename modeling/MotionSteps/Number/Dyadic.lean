/-!
# Finite numbers as dyadic fractions

A finite binary64 number is an integer times a power of two. This module reads
that integer and exponent off the bits of the number, and derives from them the
two exact facts the program asks of a number: whether it is whole, and which
64-bit integer it truncates to.
-/

namespace MotionSteps

/-- The number `± significand · 2 ^ exponent`. -/
structure Dyadic where
  negative : Bool
  significand : Nat
  exponent : Int
  deriving DecidableEq, Repr

namespace Dyadic

/-- The sign, significand and exponent that the bits of a finite number hold. A
biased exponent of zero marks the subnormal numbers, whose leading bit is not
implied. -/
def ofFloat (number : Float) : Dyadic :=
  let bits := number.toBits.toNat
  let biased := bits / Nat.pow 2 52 % Nat.pow 2 11
  let fraction := bits % Nat.pow 2 52
  { negative := bits / Nat.pow 2 63 == 1
    significand := if biased = 0 then fraction else Nat.pow 2 52 + fraction
    exponent := Int.ofNat (max biased 1) - 1075 }

/-- The whole part of the magnitude. -/
def wholePart (number : Dyadic) : Nat :=
  if 0 ≤ number.exponent then number.significand * Nat.pow 2 number.exponent.toNat
  else number.significand / Nat.pow 2 (-number.exponent).toNat

/-- Whether the number has no fractional part. -/
def isWhole (number : Dyadic) : Bool :=
  0 ≤ number.exponent || number.significand % Nat.pow 2 (-number.exponent).toNat == 0

/-- The number without its fractional part. -/
def truncated (number : Dyadic) : Int :=
  if number.negative then -Int.ofNat number.wholePart else Int.ofNat number.wholePart

end Dyadic

namespace Number

/-- The least integer that a 64-bit field holds. -/
def integerMin : Int := -9223372036854775808

/-- The greatest integer that a 64-bit field holds. -/
def integerMax : Int := 9223372036854775807

/-- An integer moved to the nearest end of the 64-bit range when it lies outside. -/
def clampInteger (value : Int) : Int :=
  max integerMin (min integerMax value)

/-- The integer a finite number becomes in an integral field: its fractional part
is dropped and the 64-bit range is kept to. -/
def toInteger (number : Float) : Int :=
  clampInteger (Dyadic.ofFloat number).truncated

/-- Up to this magnitude every whole number is a binary64 number of its own. -/
def exactLimit : Nat := Nat.pow 2 53

/-- The integer that a number is written as: itself, when it is whole and no larger
than `exactLimit`. -/
def asWhole? (number : Float) : Option Int :=
  let dyadic := Dyadic.ofFloat number
  if dyadic.isWhole && dyadic.wholePart ≤ exactLimit then some dyadic.truncated else none

/-- A fraction is dropped toward zero. -/
example : toInteger (-2.75) = -2 := by decide +kernel

/-- A number beyond the range saturates. -/
example : toInteger 1e300 = 9223372036854775807 := by decide +kernel

/-- The negative zero is written as the integer zero. -/
example : asWhole? (-0.0) = some 0 := by decide +kernel

end Number

end MotionSteps
