import MotionSteps.Number.Dyadic

/-!
# The shortest decimal of a binary number

A binary64 number stands for every real number that rounds to it. `shortest` finds
the decimal with the fewest digits in that interval, and of several with as few
digits the one nearest to the number itself, an exact tie going to the even digit.
All of it is exact arithmetic on natural numbers: a grid of decimals with `n`
digits has a member in the interval only if one of the two grid points next to the
number is in it.
-/

namespace MotionSteps

/-- The decimal `digits · 10 ^ exponent`. -/
structure Decimal where
  digits : Nat
  exponent : Int
  deriving DecidableEq, Repr

namespace Decimal

/-- The exponent of the first decimal digit of `significand · 2 ^ exponent`: the
power of ten that is the greatest not above it. The logarithm of two is known
closely enough that the estimate is right or one too small. -/
def leadingExponent (significand : Nat) (exponent : Int) : Int :=
  let estimate := (Int.ofNat significand.log2 + exponent) * 30103 / 100000
  let next := estimate + 1
  if Nat.pow 10 next.toNat * Nat.pow 2 (-exponent).toNat ≤
      significand * Nat.pow 2 exponent.toNat * Nat.pow 10 (-next).toNat then
    next
  else
    estimate

/-- The point of the grid of multiples of `10 ^ step` that reads back as
`significand · 2 ^ exponent` and is nearest to it, if one does. The interval of
reals that round to the number is closed exactly when the significand is even, and
only half as wide below when the significand is the least of its binade. -/
def onGrid? (significand : Nat) (exponent : Int) (narrowBelow : Bool) (step : Int) :
    Option Nat :=
  let quarter := Nat.pow 2 exponent.toNat * Nat.pow 10 (-step).toNat
  let unit := 4 * (Nat.pow 2 (-exponent).toNat * Nat.pow 10 step.toNat)
  let value := 4 * significand * quarter
  let low := value - (if narrowBelow then quarter else 2 * quarter)
  let high := value + 2 * quarter
  let closed := significand % 2 == 0
  let below := value / unit
  let above := below + 1
  let belowFits := if closed then low ≤ below * unit else low < below * unit
  let aboveFits := if closed then above * unit ≤ high else above * unit < high
  let belowGap := value - below * unit
  let aboveGap := above * unit - value
  if belowFits && aboveFits then
    some (if belowGap < aboveGap || (belowGap == aboveGap && below % 2 == 0) then below else above)
  else if belowFits then some below
  else if aboveFits then some above
  else none

/-- Try the grids of `digits`, `digits + 1`, … digits, at most `more + 1` of them. -/
def search (significand : Nat) (exponent : Int) (narrowBelow : Bool) (leading : Int) :
    (more : Nat) → (digits : Nat) → Decimal
  | 0, digits =>
      let step := leading - Int.ofNat digits + 1
      ⟨(onGrid? significand exponent narrowBelow step).getD 0, step⟩
  | more + 1, digits =>
      let step := leading - Int.ofNat digits + 1
      match onGrid? significand exponent narrowBelow step with
      | some point => ⟨point, step⟩
      | none => search significand exponent narrowBelow leading more (digits + 1)

/-- Zeros at the end of the digits moved into the exponent, at most `more` of them. -/
def trimZeros : (more : Nat) → Decimal → Decimal
  | 0, decimal => decimal
  | more + 1, decimal =>
      if decimal.digits % 10 == 0 && decimal.digits != 0 then
        trimZeros more ⟨decimal.digits / 10, decimal.exponent + 1⟩
      else decimal

/-- The shortest decimal that reads back as the magnitude of a nonzero finite number.
Seventeen digits are enough for every one of them. -/
def shortest (number : Dyadic) : Decimal :=
  let narrowBelow := number.significand == Nat.pow 2 52 && -1074 < number.exponent
  let leading := leadingExponent number.significand number.exponent
  trimZeros 17 (search number.significand number.exponent narrowBelow leading 16 1)

/-- One tenth needs one digit, although no binary number equals it. -/
example : shortest (Dyadic.ofFloat 0.1) = ⟨1, -1⟩ := by decide +kernel

/-- The least positive number. -/
example : shortest (Dyadic.ofFloat 5e-324) = ⟨5, -324⟩ := by decide +kernel

end Decimal

end MotionSteps
