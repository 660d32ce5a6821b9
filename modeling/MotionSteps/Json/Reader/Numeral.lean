import MotionSteps.Json.Reader
import MotionSteps.Number.Decimal

/-!
# Reading numbers

A numeral is first taken apart into its digits and then evaluated. An integer that
fits 64 bits keeps its value; every other numeral becomes a binary64 number by one
multiplication or division: its leading digits, as many as fit an unsigned 64-bit
integer, are rounded to binary64 and scaled by a power of ten. The result is not
always the nearest number, and texts that are read back must be evaluated the same
way.
-/

namespace MotionSteps.Json

/-- The parts of a numeral. -/
structure Numeral where
  negative : Bool
  whole : List Char
  fraction : Option (List Char)
  exponent : Option (Bool × List Char)
  deriving Repr

namespace Numeral

/-- The digits in front of a text, and what follows them. -/
def splitDigits (text : List Char) : List Char × List Char :=
  (text.takeWhile Char.isDigit, text.dropWhile Char.isDigit)

/-- Digits that must be there. At the end of the text the fault is `atEnd`. -/
def scanDigits (atEnd : Cause) (text : List Char) : Except Fault (List Char × List Char) :=
  match text with
  | [] => .error (.before atEnd [])
  | c :: _ => if c.isDigit then .ok (splitDigits text) else .error (.on .malformedNumber text)

/-- The digits before the point: a zero in front of other digits is refused. -/
def scanWhole (atEnd : Cause) (text : List Char) : Except Fault (List Char × List Char) :=
  match text with
  | '0' :: c :: rest =>
      if c.isDigit then .error (.on .malformedNumber (c :: rest)) else .ok (['0'], c :: rest)
  | _ => scanDigits atEnd text

/-- The fraction, if a point follows. -/
def scanFraction (atEnd : Cause) (text : List Char) :
    Except Fault (Option (List Char) × List Char) :=
  match text with
  | '.' :: rest =>
      match scanDigits atEnd rest with
      | .ok (digits, behind) => .ok (some digits, behind)
      | .error fault => .error fault
  | _ => .ok (none, text)

/-- The exponent and whether it is negative, if a mark follows. -/
def scanExponent (atEnd : Cause) (text : List Char) :
    Except Fault (Option (Bool × List Char) × List Char) :=
  match text with
  | mark :: rest =>
      if mark == 'e' || mark == 'E' then
        let (negative, unsigned) := MotionSteps.Number.splitSign rest
        match scanDigits atEnd unsigned with
        | .ok (digits, behind) => .ok (some (negative, digits), behind)
        | .error fault => .error fault
      else .ok (none, text)
  | [] => .ok (none, [])

/-- An optional minus sign in front of a text: whether it is there, and what
follows. -/
def splitMinus : List Char → Bool × List Char
  | '-' :: rest => (true, rest)
  | rest => (false, rest)

/-- Take a numeral off the front of a text that starts with a digit or a minus
sign. -/
def scan (atEnd : Cause) (text : List Char) : Except Fault (Numeral × List Char) := do
  let (negative, unsigned) := splitMinus text
  let (whole, behind) ← scanWhole atEnd unsigned
  let (fraction, behind) ← scanFraction atEnd behind
  let (exponent, behind) ← scanExponent atEnd behind
  return (⟨negative, whole, fraction, exponent⟩, behind)

/-- The first number that an unsigned 64-bit integer does not hold. -/
def significandLimit : Nat := Nat.pow 2 64

/-- Append digits to a significand while it stays below `significandLimit`. What is
left of the digits plays no part in the significand. -/
def gather (significand : Nat) : List Char → Nat × List Char
  | [] => (significand, [])
  | digit :: digits =>
      let next := significand * 10 + (digit.toNat - '0'.toNat)
      if next < significandLimit then gather next digits else (significand, digit :: digits)

/-- The greatest exponent that is evaluated. -/
def exponentLimit : Nat := 2147483647

/-- The value of exponent digits, or the digits behind the one that takes it past
`exponentLimit`. -/
def boundedExponent (value : Nat) : List Char → Except (List Char) Nat
  | [] => .ok value
  | digit :: digits =>
      let next := value * 10 + (digit.toNat - '0'.toNat)
      if next ≤ exponentLimit then boundedExponent next digits else .error digits

/-- A power of ten, rounded to binary64. -/
def powerOfTen (exponent : Nat) : Float :=
  Float.ofScientific 1 false exponent

/-- The greatest power of ten that is a finite number. -/
def greatestPower : Nat := 308

/-- A number divided by a power of ten, by steps of `greatestPower` at most. -/
def scaleDown (value : Float) (exponent : Nat) : Float :=
  if exponent ≤ greatestPower then value / powerOfTen exponent
  else if value == 0 then value
  else scaleDown (value / powerOfTen greatestPower) (exponent - greatestPower)
termination_by exponent
decreasing_by simp only [greatestPower] at *; omega

/-- A number times a power of ten, if that is finite. -/
def scale? (value : Float) (exponent : Int) : Option Float :=
  if exponent < 0 then some (scaleDown value exponent.natAbs)
  else if exponent ≤ greatestPower then
    let product := value * powerOfTen exponent.natAbs
    if product.isInf then none else some product
  else if value == 0 then some value
  else none

/-- A number with the sign of the numeral. -/
def signed (numeral : Numeral) (magnitude : Float) : Number :=
  .float (if numeral.negative then -magnitude else magnitude)

/-- The number that a numeral stands for. When it is out of range, the digits of the
exponent behind the place where that shows. -/
def value (numeral : Numeral) : Except (List Char) Number :=
  let (significand, unused) := gather 0 numeral.whole
  let (significand', unusedFraction) := gather significand (numeral.fraction.getD [])
  let fractionUsed := (numeral.fraction.getD []).length - unusedFraction.length
  let shift : Int := Int.ofNat unused.length - Int.ofNat fractionUsed
  let scaled (exponent : Int) : Except (List Char) Number :=
    match scale? (Float.ofNat significand') exponent with
    | some magnitude => .ok (numeral.signed magnitude)
    | none => .error []
  match numeral.exponent with
  | some (negative, digits) =>
      match boundedExponent 0 digits with
      | .ok exponent => scaled (shift + if negative then -Int.ofNat exponent else Int.ofNat exponent)
      | .error unread =>
          if significand' = 0 || negative then .ok (numeral.signed 0) else .error unread
  | none =>
      if numeral.fraction.isSome || !unused.isEmpty then scaled shift
      else if !numeral.negative then .ok (.integer (Int.ofNat significand))
      else if significand = 0 || Nat.pow 2 63 < significand then
        .ok (numeral.signed (Float.ofNat significand))
      else .ok (.integer (-Int.ofNat significand))

/-- Read the number in front of a text that starts with a digit or a minus sign. -/
def read (text : List Char) : Except Fault (Number × List Char) :=
  match scan .endInValue text with
  | .error fault => .error fault
  | .ok (numeral, rest) =>
      match numeral.value with
      | .ok found => .ok (found, rest)
      | .error unread => .error (.before .numberTooLarge (unread ++ rest))

theorem scanDigits_shorter {atEnd : Cause} {text digits rest : List Char}
    (scanned : scanDigits atEnd text = .ok (digits, rest)) : rest.length < text.length := by
  unfold scanDigits at scanned
  split at scanned
  · cases scanned
  · next c tail =>
      split at scanned
      · next isDigit =>
          cases scanned
          have dropped : (c :: tail).dropWhile Char.isDigit = tail.dropWhile Char.isDigit := by
            simp [isDigit]
          rw [dropped]
          have := (List.dropWhile_suffix Char.isDigit (l := tail)).length_le
          simp only [List.length_cons]
          omega
      · cases scanned

theorem scanWhole_shorter {atEnd : Cause} {text digits rest : List Char}
    (scanned : scanWhole atEnd text = .ok (digits, rest)) : rest.length < text.length := by
  unfold scanWhole at scanned
  split at scanned
  · split at scanned
    · cases scanned
    · cases scanned
      simp
  · exact scanDigits_shorter scanned

theorem scanFraction_le {atEnd : Cause} {text rest : List Char} {digits : Option (List Char)}
    (scanned : scanFraction atEnd text = .ok (digits, rest)) : rest.length ≤ text.length := by
  unfold scanFraction at scanned
  split at scanned
  · split at scanned
    · next inner behind ran =>
        cases scanned
        have := scanDigits_shorter ran
        simp only [List.length_cons]
        omega
    · cases scanned
  · cases scanned
    exact Nat.le_refl _

theorem length_splitSign_le (text : List Char) :
    (MotionSteps.Number.splitSign text).2.length ≤ text.length := by
  unfold MotionSteps.Number.splitSign
  split <;> simp

theorem length_splitMinus_le (text : List Char) : (splitMinus text).2.length ≤ text.length := by
  unfold splitMinus
  split <;> simp

theorem scanExponent_le {atEnd : Cause} {text rest : List Char}
    {exponent : Option (Bool × List Char)}
    (scanned : scanExponent atEnd text = .ok (exponent, rest)) : rest.length ≤ text.length := by
  unfold scanExponent at scanned
  split at scanned
  · next mark tail =>
      split at scanned
      · simp only at scanned
        split at scanned
        · next digits behind ran =>
            cases scanned
            have behindSign := length_splitSign_le tail
            have behindDigits := scanDigits_shorter ran
            simp only [List.length_cons]
            omega
        · cases scanned
      · cases scanned
        exact Nat.le_refl _
  · cases scanned
    exact Nat.le_refl _

/-- A numeral is at least one character long. -/
theorem scan_shorter {atEnd : Cause} {text rest : List Char} {numeral : Numeral}
    (scanned : scan atEnd text = .ok (numeral, rest)) : rest.length < text.length := by
  unfold scan at scanned
  simp only [bind, Except.bind, pure, Except.pure] at scanned
  split at scanned
  · cases scanned
  · next whole ranWhole =>
      split at scanned
      · cases scanned
      · next fraction ranFraction =>
          split at scanned
          · cases scanned
          · next exponent ranExponent =>
              cases scanned
              have first := scanWhole_shorter ranWhole
              have second := scanFraction_le ranFraction
              have third := scanExponent_le ranExponent
              have := length_splitMinus_le text
              omega

theorem read_shorter {text rest : List Char} {number : Number}
    (ran : read text = .ok (number, rest)) : rest.length < text.length := by
  unfold read at ran
  split at ran
  · cases ran
  · next numeral behind scanned =>
      split at ran
      · cases ran
        exact scan_shorter scanned
      · cases ran

end Numeral

end MotionSteps.Json
