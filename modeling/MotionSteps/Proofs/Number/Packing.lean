import Mathlib
import MotionSteps.Number.Dyadic

/-!
# Whole numbers as bits

A binary64 number that is not too close to zero keeps all but the first digit of its significand in
its bits, because that digit is always there. So bits and number determine each other, and
`Dyadic.ofFloat` reads the number off them. `Denotes` picks the zeros and those numbers of this kind
that are whole: they come back when they are packed and unpacked, and truncating one of them gives
the integer that it denotes.
-/

namespace MotionSteps

open Float.Model Float.Model.UnpackedFloat

/-! ## Fields of bits -/

theorem toNat_append {width other : Nat} (high : BitVec width) (low : BitVec other) :
    (high ++ low).toNat = high.toNat * 2 ^ other + low.toNat := by
  rw [BitVec.toNat_append, ← Nat.shiftLeft_add_eq_or_of_lt low.isLt, Nat.shiftLeft_eq]

/-- A number is read off the fields of its bits. -/
theorem Dyadic.ofFloat_of_components {number : UnpackedFloat} {sign : Sign} {biased : BitVec 11}
    {fraction : BitVec 52}
    (packed : UnpackedFloat.pack .binary64 number =
      packComponents .binary64 sign biased fraction) :
    Dyadic.ofFloat (.ofModel (.pack number)) =
      ⟨sign == .negative,
        if biased.toNat = 0 then fraction.toNat else 2 ^ 52 + fraction.toNat,
        Int.ofNat (max biased.toNat 1) - 1075⟩ := by
  have small := biased.isLt
  have smallToo := fraction.isLt
  have whole : (Float.ofModel (.pack number)).toBits.toNat =
      sign.toBitVec.toNat * 2 ^ 63 + (biased.toNat * 2 ^ 52 + fraction.toNat) := by
    change (UnpackedFloat.pack .binary64 number).toNat = _
    rw [packed, packComponents, toNat_append, toNat_append]
    omega
  have exponentField : (Float.ofModel (.pack number)).toBits.toNat / Nat.pow 2 52 % Nat.pow 2 11 =
      biased.toNat := by
    simp only [Nat.pow_eq, whole]
    omega
  have fractionField : (Float.ofModel (.pack number)).toBits.toNat % Nat.pow 2 52 =
      fraction.toNat := by
    simp only [Nat.pow_eq, whole]
    omega
  have signField : (Float.ofModel (.pack number)).toBits.toNat / Nat.pow 2 63 =
      sign.toBitVec.toNat := by
    simp only [Nat.pow_eq, whole]
    omega
  simp only [ofFloat, exponentField, fractionField, signField]
  cases sign <;> rfl

/-! ## Normal numbers -/

section

variable {sign : Sign} {significand : Nat} {exponent : Int} {positive : 0 < significand}

/-- The bits of a number whose significand has 53 digits. -/
theorem pack_normal (least : 2 ^ 52 ≤ significand) (below : significand < 2 ^ 53)
    (lowest : -1074 ≤ exponent) (highest : exponent ≤ 971) :
    UnpackedFloat.pack .binary64 (.finite sign significand exponent positive) =
      packComponents .binary64 sign (BitVec.ofNat 11 (exponent + 1075).toNat)
        (BitVec.ofNat 52 significand) := by
  have digits : significand.log2 = 52 := (Nat.log2_eq_iff positive.ne').mpr ⟨least, below⟩
  have biased : (exponent + (Format.binary64.exponentBias : Nat) +
      (Format.binary64.mantissaBitsWithoutImplicit : Nat)).toNat = (exponent + 1075).toNat := by
    simp only [Format.exponentBias]
    omega
  have full : 52 + 1 = Format.binary64.mantissaBits := rfl
  simp only [UnpackedFloat.pack, digits, biased]
  rw [if_neg (by omega), if_pos full]

/-- The significand without its first digit. -/
theorem toNat_fraction (least : 2 ^ 52 ≤ significand) (below : significand < 2 ^ 53) :
    (BitVec.ofNat 52 significand).toNat = significand - 2 ^ 52 := by
  rw [BitVec.toNat_ofNat]
  omega

theorem toNat_biased (lowest : -1074 ≤ exponent) (highest : exponent ≤ 971) :
    (BitVec.ofNat 11 (exponent + 1075).toNat).toNat = (exponent + 1075).toNat := by
  rw [BitVec.toNat_ofNat]
  omega

/-- A number whose significand has 53 digits comes back from its bits. -/
theorem unpack_pack_normal (least : 2 ^ 52 ≤ significand) (below : significand < 2 ^ 53)
    (lowest : -1074 ≤ exponent) (highest : exponent ≤ 971) :
    (Float.Model.pack (.finite sign significand exponent positive)).unpack =
      .finite sign significand exponent positive := by
  have fraction := toNat_fraction least below
  have biased := toNat_biased lowest highest
  have notTop : BitVec.ofNat 11 (exponent + 1075).toNat ≠ -1#11 := by
    intro same
    rw [same] at biased
    change 2047 = _ at biased
    omega
  have notBottom : BitVec.ofNat 11 (exponent + 1075).toNat ≠ 0#11 := by
    intro same
    rw [same] at biased
    change 0 = _ at biased
    omega
  have digits : (1#1 ++ BitVec.ofNat 52 significand).toNat = significand := by
    rw [toNat_append, fraction]
    change 1 * 2 ^ 52 + _ = _
    omega
  have unbiased : ((exponent + 1075).toNat : Int) -
      ((Format.binary64.exponentBias : Nat) +
        (Format.binary64.mantissaBitsWithoutImplicit : Nat)) = exponent := by
    simp only [Format.exponentBias]
    omega
  change UnpackedFloat.unpack .binary64 (UnpackedFloat.pack .binary64 _) = _
  rw [pack_normal least below lowest highest]
  simp only [UnpackedFloat.unpack, unpackExponent_packComponents, unpackMantissa_packComponents,
    unpackSign_packComponents, Sign.ofBitVec_toBitVec]
  simp only [if_neg notTop, if_neg notBottom, digits, biased, unbiased]

/-- It is read off its bits. -/
theorem ofFloat_pack_normal (least : 2 ^ 52 ≤ significand) (below : significand < 2 ^ 53)
    (lowest : -1074 ≤ exponent) (highest : exponent ≤ 971) :
    Dyadic.ofFloat (.ofModel (.pack (.finite sign significand exponent positive))) =
      ⟨sign == .negative, significand, exponent⟩ := by
  have restored : 2 ^ 52 + (significand - 2 ^ 52) = significand := by omega
  have unbiased : Int.ofNat (max (exponent + 1075).toNat 1) - 1075 = exponent := by
    simp only [Int.ofNat_eq_natCast]
    omega
  rw [Dyadic.ofFloat_of_components (pack_normal least below lowest highest),
    toNat_fraction least below, toNat_biased lowest highest, if_neg (by omega), restored, unbiased]

end

/-! ## Whole numbers -/

/-- A number is a zero, or it is normal and whole. It denotes an integer. -/
inductive Denotes : UnpackedFloat → Int → Prop where
  | zero (sign : Sign) : Denotes (.zero sign) 0
  | normal {sign : Sign} {significand magnitude : Nat} {exponent : Int} {positive : 0 < significand}
      (least : 2 ^ 52 ≤ significand) (below : significand < 2 ^ 53)
      (lowest : -1074 ≤ exponent) (highest : exponent ≤ 971)
      (same : significand * 2 ^ exponent.toNat = magnitude * 2 ^ (-exponent).toNat) :
      Denotes (.finite sign significand exponent positive) (sign.apply magnitude)

namespace Denotes

/-- A number that needs no fraction digits is whole. -/
theorem of_natCast {sign : Sign} {significand count : Nat} {positive : 0 < significand}
    (least : 2 ^ 52 ≤ significand) (below : significand < 2 ^ 53) (highest : count ≤ 971) :
    Denotes (.finite sign significand count positive)
      (sign.apply (significand * 2 ^ count : Nat)) := by
  refine .normal least below (by omega) (by omega) ?_
  rw [Int.toNat_natCast, Int.toNat_neg_natCast, pow_zero, Nat.mul_one]

variable {number : UnpackedFloat} {value : Int}

theorem unpack_pack (denotes : Denotes number value) :
    (Float.Model.pack number).unpack = number := by
  cases denotes with
  | zero sign => cases sign <;> rfl
  | normal least below lowest highest => exact unpack_pack_normal least below lowest highest

theorem isFinite (denotes : Denotes number value) :
    (Float.ofModel (.pack number)).isFinite = true := by
  change (Float.Model.pack number).unpack.isFinite = true
  rw [denotes.unpack_pack]
  cases denotes <;> rfl

theorem neg (denotes : Denotes number value) : Denotes number.neg (-value) := by
  cases denotes with
  | zero sign => exact .zero (-sign)
  | @normal sign significand magnitude exponent positive least below lowest highest same =>
      have turned : -sign.apply magnitude = (-sign).apply magnitude := by
        cases sign
        · exact Int.neg_neg _
        · rfl
      rw [turned]
      exact .normal least below lowest highest same

/-- Truncating a whole number changes nothing. -/
theorem truncated (denotes : Denotes number value) :
    (Dyadic.ofFloat (.ofModel (.pack number))).truncated = value := by
  cases denotes with
  | zero sign => cases sign <;> decide +kernel
  | @normal sign significand magnitude exponent positive least below lowest highest same =>
      have whole : (⟨sign == .negative, significand, exponent⟩ : Dyadic).wholePart = magnitude := by
        simp only [Dyadic.wholePart, Nat.pow_eq]
        rcases Int.lt_or_le exponent 0 with fractional | upward
        · rw [Int.toNat_of_nonpos fractional.le, pow_zero, Nat.mul_one] at same
          rw [if_neg (Int.not_le.mpr fractional), same, Nat.mul_div_cancel _ (Nat.two_pow_pos _)]
        · rw [if_pos upward, same, Int.toNat_of_nonpos (Int.neg_nonpos_of_nonneg upward), pow_zero,
            Nat.mul_one]
      rw [ofFloat_pack_normal least below lowest highest, Dyadic.truncated, whole]
      cases sign <;> rfl

end Denotes

end MotionSteps
