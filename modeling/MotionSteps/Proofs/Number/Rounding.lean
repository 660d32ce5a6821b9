import Mathlib

/-!
# Rounding to the nearest binary64 number

A significand that is too long is shifted to the right, and two bits keep what is needed of the
part that falls off: whether it is at least half a unit, and whether there is more. `Represents`
says what the three together tell about the value that was shifted. Each shift by one position
keeps it, so the significand that a whole number of shifts leaves is rounded to the nearest, and a
tie to the even one.
-/

namespace MotionSteps.Number

open Float.Model Float.Model.UnpackedFloat

/-- A value in units, rounded to the nearest number of them. A tie goes to the even number. -/
def halfEven (value unit : Nat) : Nat :=
  if 2 * (value % unit) < unit ∨ 2 * (value % unit) = unit ∧ value / unit % 2 = 0 then value / unit
  else value / unit + 1

/-! ## Numbers of units -/

section

variable {value unit : Nat}

/-- Between two numbers of units the lower one is the nearest up to the middle. -/
theorem halfEven_eq {quotient rest : Nat} (split : value = quotient * unit + rest)
    (below : rest < unit) :
    halfEven value unit =
      if 2 * rest < unit ∨ 2 * rest = unit ∧ quotient % 2 = 0 then quotient
      else quotient + 1 := by
  have positive : 0 < unit := Nat.zero_lt_of_lt below
  have whole : value / unit = quotient := by
    rw [split, Nat.mul_comm, Nat.mul_add_div positive, Nat.div_eq_of_lt below, Nat.add_zero]
  have fraction : value % unit = rest := by
    rw [split, Nat.mul_comm, Nat.mul_add_mod, Nat.mod_eq_of_lt below]
  rw [halfEven, whole, fraction]

/-- Nothing is rounded if the value is a number of units. -/
theorem halfEven_mul (quotient : Nat) (positive : 0 < unit) :
    halfEven (quotient * unit) unit = quotient := by
  rw [halfEven_eq (Nat.add_zero _).symm positive, if_pos (.inl (by omega))]

/-- The same value in the same units counted in another measure is rounded alike. -/
theorem halfEven_mul_mul {factor : Nat} (positive : 0 < factor) :
    halfEven (value * factor) (unit * factor) = halfEven value unit := by
  have order : 2 * (value % unit * factor) < unit * factor ↔ 2 * (value % unit) < unit := by
    rw [← Nat.mul_assoc, Nat.mul_lt_mul_right positive]
  have tie : 2 * (value % unit * factor) = unit * factor ↔ 2 * (value % unit) = unit := by
    rw [← Nat.mul_assoc, Nat.mul_right_cancel_iff positive]
  simp only [halfEven, Nat.mul_mod_mul_right, Nat.mul_div_mul_right _ _ positive, order, tie]

/-- The nearest number of units is no more than half a unit away. -/
theorem halfEven_near (positive : 0 < unit) :
    2 * value ≤ (2 * halfEven value unit + 1) * unit ∧
      2 * (halfEven value unit * unit) ≤ 2 * value + unit := by
  have split := Nat.div_add_mod' value unit
  have below := Nat.mod_lt value positive
  rw [halfEven, ← split]
  split <;> grind

/-- Rounding changes what is no number of units, and nothing else. -/
theorem halfEven_mul_eq_iff (positive : 0 < unit) :
    halfEven value unit * unit = value ↔ unit ∣ value := by
  constructor
  · intro same
    exact ⟨halfEven value unit, by rw [Nat.mul_comm, same]⟩
  · rintro ⟨quotient, rfl⟩
    rw [Nat.mul_comm unit, halfEven_mul quotient positive]

/-- Rounding leaves a value between the numbers of units that it is between. -/
theorem le_halfEven {bound : Nat} (least : bound ≤ value / unit) : bound ≤ halfEven value unit := by
  rw [halfEven]
  split
  · exact least
  · omega

theorem halfEven_le {bound : Nat} (greatest : value / unit < bound) :
    halfEven value unit ≤ bound := by
  rw [halfEven]
  split <;> omega

end

/-! ## Significands with residual bits -/

/-- Where a value lies, as a significand in some unit and its two residual bits tell. -/
inductive Represents (value unit : Nat) : ExtendedMantissa → Prop where
  | exact {mantissa : Nat} (same : value = mantissa * unit) :
      Represents value unit ⟨mantissa, false, false⟩
  | belowHalf {mantissa : Nat} (least : mantissa * unit < value)
      (greatest : 2 * value < (2 * mantissa + 1) * unit) :
      Represents value unit ⟨mantissa, false, true⟩
  | half {mantissa : Nat} (same : 2 * value = (2 * mantissa + 1) * unit) :
      Represents value unit ⟨mantissa, true, false⟩
  | aboveHalf {mantissa : Nat} (least : (2 * mantissa + 1) * unit < 2 * value)
      (greatest : value < (mantissa + 1) * unit) :
      Represents value unit ⟨mantissa, true, true⟩

namespace Represents

variable {value unit : Nat} {extended : ExtendedMantissa}

/-- The rounded significand is the nearest number of units. -/
theorem roundedMantissa (represents : Represents value unit extended) (positive : 0 < unit) :
    extended.roundedMantissa = halfEven value unit := by
  cases represents with
  | @exact mantissa same =>
      rw [same, halfEven_mul mantissa positive]
      rfl
  | @belowHalf mantissa least greatest =>
      have split : value = mantissa * unit + (value - mantissa * unit) := by omega
      rw [halfEven_eq split (by grind), if_pos (.inl (by grind))]
      rfl
  | @half mantissa same =>
      have split : value = mantissa * unit + (value - mantissa * unit) := by grind
      have tie : 2 * (value - mantissa * unit) = unit := by grind
      rw [halfEven_eq split (by omega), tie]
      change mantissa + mantissa % 2 = _
      split <;> omega
  | @aboveHalf mantissa least greatest =>
      have split : value = mantissa * unit + (value - mantissa * unit) := by grind
      have more : unit < 2 * (value - mantissa * unit) := by grind
      rw [halfEven_eq split (by grind), if_neg (by omega)]
      rfl

/-- A shift by one position keeps what is known of a value, in units twice as large. What was the
lowest bit is at least half of such a unit. -/
theorem shiftRightOne (represents : Represents value unit extended) (positive : 0 < unit) :
    Represents value (2 * unit) extended.shiftRightOne := by
  have even : ∀ half roundBit stickyBit, ExtendedMantissa.shiftRightOne
      ⟨2 * half, roundBit, stickyBit⟩ = ⟨half, false, roundBit || stickyBit⟩ := by
    simp [ExtendedMantissa.shiftRightOne]
  have odd : ∀ half roundBit stickyBit, ExtendedMantissa.shiftRightOne
      ⟨2 * half + 1, roundBit, stickyBit⟩ = ⟨half, true, roundBit || stickyBit⟩ := by
    simp [ExtendedMantissa.shiftRightOne]
    omega
  cases represents with
  | @exact mantissa same =>
      obtain ⟨half, rfl | rfl⟩ := mantissa.even_or_odd'
      · rw [even]
        exact .exact (by grind)
      · rw [odd]
        exact .half (by grind)
  | @belowHalf mantissa least greatest =>
      obtain ⟨half, rfl | rfl⟩ := mantissa.even_or_odd'
      · rw [even]
        exact .belowHalf (by grind) (by grind)
      · rw [odd]
        exact .aboveHalf (by grind) (by grind)
  | @half mantissa same =>
      obtain ⟨half, rfl | rfl⟩ := mantissa.even_or_odd'
      · rw [even]
        exact .belowHalf (by grind) (by grind)
      · rw [odd]
        exact .aboveHalf (by grind) (by grind)
  | @aboveHalf mantissa least greatest =>
      obtain ⟨half, rfl | rfl⟩ := mantissa.even_or_odd'
      · rw [even]
        exact .belowHalf (by grind) (by grind)
      · rw [odd]
        exact .aboveHalf (by grind) (by grind)

/-- So does a shift by any number of positions. -/
theorem shiftRight (represents : Represents value unit extended) (positive : 0 < unit)
    (count : Nat) : Represents value (2 ^ count * unit) (extended >>> count) := by
  change Represents value (2 ^ count * unit) (count.repeat ExtendedMantissa.shiftRightOne extended)
  induction count with
  | zero => rwa [pow_zero, Nat.one_mul]
  | succ count inductionHypothesis =>
      have twice : 2 ^ (count + 1) * unit = 2 * (2 ^ count * unit) := by ring
      rw [twice]
      exact inductionHypothesis.shiftRightOne (Nat.mul_pos (Nat.two_pow_pos count) positive)

end Represents

/-- A whole number that is shifted is rounded to the nearest number of the new units. -/
theorem roundedMantissa_shiftRight (value count : Nat) :
    ((⟨value, false, false⟩ : ExtendedMantissa) >>> count).roundedMantissa =
      halfEven value (2 ^ count) := by
  have represents : Represents value 1 ⟨value, false, false⟩ := .exact (Nat.mul_one value).symm
  have shifted := represents.shiftRight Nat.one_pos count
  rw [Nat.mul_one] at shifted
  exact shifted.roundedMantissa (Nat.two_pow_pos count)

/-! ## Rounding to a format -/

theorem log2_mul_two_pow {value : Nat} (positive : 0 < value) (count : Nat) :
    (value * 2 ^ count).log2 = value.log2 + count := by
  obtain ⟨least, below⟩ := (Nat.log2_eq_iff positive.ne').mp rfl
  rw [Nat.log2_eq_iff (Nat.mul_pos positive (Nat.two_pow_pos count)).ne', Nat.add_right_comm,
    pow_add, pow_add]
  exact ⟨Nat.mul_le_mul_right _ least, Nat.mul_lt_mul_of_pos_right below (Nat.two_pow_pos count)⟩

/-- A significand that does not have to grow is shifted until it has 53 digits. -/
theorem shiftToTargetExponent_eq {significand count : Nat} (exponent : Int)
    (long : significand.log2 = 52 + count) (normal : -1074 ≤ exponent + count) :
    shiftToTargetExponent .binary64 significand exponent .exact =
      ((⟨significand, false, false⟩ : ExtendedMantissa) >>> count, exponent + count) := by
  have target : Format.binary64.targetExponent (totalExponent significand exponent) =
      exponent + count := by
    simp only [Format.targetExponent, totalExponent, Format.mantissaBits, Format.minExponent, long]
    omega
  have amount : (exponent + count - exponent).toNat = count := by omega
  simp only [shiftToTargetExponent, shiftToExponent, target, amount,
    ExtendedMantissa.ofMantissaAndAccuracy]

theorem halfEven_mem_range {significand count : Nat} (long : significand.log2 = 52 + count) :
    2 ^ 52 ≤ halfEven significand (2 ^ count) ∧ halfEven significand (2 ^ count) ≤ 2 ^ 53 := by
  have nonzero : significand ≠ 0 := by
    rintro rfl
    simp at long
    omega
  obtain ⟨least, greatest⟩ := (Nat.log2_eq_iff nonzero).mp long
  refine ⟨le_halfEven ?_, halfEven_le ?_⟩
  · rwa [Nat.le_div_iff_mul_le (Nat.two_pow_pos count), ← pow_add]
  · rw [Nat.div_lt_iff_lt_mul (Nat.two_pow_pos count), ← pow_add]
    rwa [Nat.add_right_comm] at greatest

/-- A significand is shifted once before it is rounded, and once more if it became longer. -/
theorem roundWithAccuracy_of_shifts (sign : Sign) {significand between result : Nat}
    {exponent first second : Int} {shifted last : ExtendedMantissa}
    (firstShift : shiftToTargetExponent .binary64 significand exponent .exact = (shifted, first))
    (rounded : shifted.roundedMantissa = between)
    (secondShift : shiftToTargetExponent .binary64 between first .exact = (last, second))
    (same : last.mantissa = result) (positive : 0 < result) :
    roundWithAccuracy .binary64 sign significand exponent .exact =
      .finite sign result second positive := by
  subst rounded same
  simp only [roundWithAccuracy, firstShift, secondShift]
  exact dif_neg positive.ne'

/-- A significand that is not too short is rounded to one of 53 digits. If it becomes longer by
rounding, it is the least that is longer, and its exponent is raised. -/
theorem roundWithAccuracy_eq (sign : Sign) {significand count : Nat} (exponent : Int)
    (long : significand.log2 = 52 + count) (normal : -1074 ≤ exponent + count) :
    (∃ positive, halfEven significand (2 ^ count) < 2 ^ 53 ∧
        roundWithAccuracy .binary64 sign significand exponent .exact =
          .finite sign (halfEven significand (2 ^ count)) (exponent + count) positive) ∨
      halfEven significand (2 ^ count) = 2 ^ 53 ∧
        roundWithAccuracy .binary64 sign significand exponent .exact =
          .finite sign (2 ^ 52) (exponent + count + 1) (Nat.two_pow_pos 52) := by
  obtain ⟨least, greatest⟩ := halfEven_mem_range long
  have firstShift := shiftToTargetExponent_eq exponent long normal
  have rounded := roundedMantissa_shiftRight significand count
  rcases Nat.lt_or_eq_of_le greatest with shorter | longer
  · have positive : 0 < halfEven significand (2 ^ count) := by omega
    have digits : (halfEven significand (2 ^ count)).log2 = 52 + 0 :=
      (Nat.log2_eq_iff positive.ne').mpr ⟨least, shorter⟩
    have secondShift := shiftToTargetExponent_eq (exponent + count) digits (by omega)
    rw [Int.natCast_zero, Int.add_zero] at secondShift
    exact .inl ⟨positive, shorter,
      roundWithAccuracy_of_shifts sign firstShift rounded secondShift rfl positive⟩
  · have digits : (2 ^ 53).log2 = 52 + 1 := Nat.log2_two_pow
    have secondShift := shiftToTargetExponent_eq (exponent + count) digits (by omega)
    exact .inr ⟨longer, roundWithAccuracy_of_shifts sign firstShift (rounded.trans longer)
      secondShift rfl (Nat.two_pow_pos 52)⟩

/-- Rounding changes nothing if no digit that counts falls off. -/
theorem roundWithAccuracy_mul (sign : Sign) {significand : Nat} (exponent : Int) (count : Nat)
    (least : 2 ^ 52 ≤ significand) (below : significand < 2 ^ 53) (normal : -1074 ≤ exponent) :
    roundWithAccuracy .binary64 sign (significand * 2 ^ count) (exponent - count) .exact =
      .finite sign significand exponent (by omega) := by
  have positive : 0 < significand := by omega
  have long : (significand * 2 ^ count).log2 = 52 + count := by
    rw [log2_mul_two_pow positive, (Nat.log2_eq_iff positive.ne').mpr ⟨least, below⟩]
  have same := halfEven_mul significand (Nat.two_pow_pos count)
  rcases roundWithAccuracy_eq sign (exponent - count) long (by omega) with
    ⟨positive, shorter, rounded⟩ | ⟨longer, -⟩
  · rw [rounded]
    congr 1
    omega
  · omega

end MotionSteps.Number
