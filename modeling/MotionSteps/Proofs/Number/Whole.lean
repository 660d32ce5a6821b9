import Mathlib
import MotionSteps.Proofs.Number.Packing
import MotionSteps.Proofs.Number.Rounding

/-!
# Integers as binary64 numbers

The binary64 numbers around an integer are the multiples of its `spacing`, which is one up to
`2 ^ 53` and then doubles with each binary digit. An integer of 64 bits becomes the multiple
nearest to it, `toNearest`, on each of the ways that the conversion takes: it multiplies a short one
by the number one, and shifts a long one to the left and rounds. So an integral field that converts
its number to binary64 keeps it exactly if its spacing divides it, or if it is the greatest one,
which the end of the range brings back.
-/

namespace MotionSteps.Number

open Float.Model Float.Model.UnpackedFloat

/-- The distance between the binary64 numbers around a whole number. -/
def spacing (magnitude : Nat) : Nat :=
  2 ^ (magnitude.log2 - 52)

/-- The multiple of its spacing that is nearest to a whole number. -/
def nearestMultiple (magnitude : Nat) : Nat :=
  halfEven magnitude (spacing magnitude) * spacing magnitude

/-- The binary64 number nearest to an integer. -/
def toNearest (value : Int) : Int :=
  if value < 0 then -Int.ofNat (nearestMultiple value.natAbs)
  else Int.ofNat (nearestMultiple value.natAbs)

/-- The integer that an integral field of 64 bits gets from an integer. -/
def held (value : Int) : Int :=
  clampInteger (toNearest value)

/-! ## Spacing -/

theorem spacing_pos (magnitude : Nat) : 0 < spacing magnitude :=
  Nat.two_pow_pos _

theorem log2_lt_of_lt {magnitude count : Nat} (positive : 0 < magnitude)
    (small : magnitude < 2 ^ count) : magnitude.log2 < count :=
  (Nat.log2_lt positive.ne').mpr small

/-- Every whole number with at most 53 binary digits is a binary64 number. -/
theorem spacing_eq_one {magnitude : Nat} (short : magnitude < 2 ^ 53) : spacing magnitude = 1 := by
  have digits : magnitude.log2 < 53 := by
    rcases Nat.eq_zero_or_pos magnitude with rfl | positive
    · simp
    · exact log2_lt_of_lt positive short
  have none : magnitude.log2 - 52 = 0 := by omega
  rw [spacing, none, pow_zero]

/-- An integer is kept exactly if it is a multiple of its spacing. -/
theorem toNearest_eq_iff {value : Int} :
    toNearest value = value ↔ (spacing value.natAbs : Int) ∣ value := by
  rw [Int.natCast_dvd, ← halfEven_mul_eq_iff (spacing_pos _), ← nearestMultiple, toNearest]
  simp only [Int.ofNat_eq_natCast]
  split <;> omega

/-- No integer is moved by more than half of its spacing. -/
theorem toNearest_near (value : Int) :
    2 * (toNearest value - value).natAbs ≤ spacing value.natAbs := by
  obtain ⟨least, greatest⟩ := @halfEven_near value.natAbs _ (spacing_pos value.natAbs)
  rw [Nat.add_mul, Nat.mul_assoc, Nat.one_mul, ← nearestMultiple] at least
  rw [← nearestMultiple] at greatest
  simp only [toNearest, Int.ofNat_eq_natCast]
  split <;> omega

theorem nearestMultiple_eq_self {magnitude : Nat} (short : magnitude < 2 ^ 53) :
    nearestMultiple magnitude = magnitude := by
  rw [nearestMultiple, halfEven_mul_eq_iff (spacing_pos _), spacing_eq_one short]
  exact Nat.one_dvd _

section

variable {value : Int}

/-- An integer of 64 bits is held exactly if it is a multiple of its spacing, or the greatest of
all: the nearest number above that one is out of range. -/
theorem held_eq_iff (least : integerMin ≤ value) (greatest : value ≤ integerMax) :
    held value = value ↔ (spacing value.natAbs : Int) ∣ value ∨ value = integerMax := by
  rw [← toNearest_eq_iff, held, clampInteger]
  constructor
  · intro same
    by_cases lowest : value = integerMin
    · rw [lowest]
      decide +kernel
    · omega
  · rintro (same | rfl)
    · omega
    · decide +kernel

/-- Up to `2 ^ 53` every integer is held exactly. -/
theorem held_eq_self (small : value.natAbs ≤ 2 ^ 53) : held value = value := by
  have least : integerMin ≤ value := by rw [integerMin]; omega
  have greatest : value ≤ integerMax := by rw [integerMax]; omega
  rw [held_eq_iff least greatest, Int.natCast_dvd]
  left
  rcases Nat.lt_or_eq_of_le small with short | limit
  · rw [spacing_eq_one short]
    exact Nat.one_dvd _
  · rw [limit]
    decide +kernel

/-- An integer of 64 bits is never held off by more than half of its spacing. -/
theorem held_near (least : integerMin ≤ value) (greatest : value ≤ integerMax) :
    2 * (held value - value).natAbs ≤ spacing value.natAbs := by
  have near := toNearest_near value
  rw [held, clampInteger]
  omega

end

/-! ## Conversion -/

section

variable {value count : Nat}

/-- A short whole number moved far enough to the left has 53 digits. -/
theorem shifted_mem_range (positive : 0 < value) (split : value.log2 + count = 52) :
    2 ^ 52 ≤ value * 2 ^ count ∧ value * 2 ^ count < 2 ^ 53 := by
  rw [← log2_mul_two_pow positive] at split
  exact (Nat.log2_eq_iff (Nat.mul_pos positive (Nat.two_pow_pos count)).ne').mp split

/-- That is how it becomes a binary64 number. -/
theorem ofNat_eq (positive : 0 < value) (split : value.log2 + count = 52) :
    UnpackedFloat.ofNat .binary64 value =
      .finite .positive (value * 2 ^ count) (-count) (Nat.mul_pos positive (Nat.two_pow_pos _)) := by
  have target : Format.binary64.targetExponent (totalExponent value 0) = -count := by
    simp only [Format.targetExponent, totalExponent, Format.mantissaBits, Format.minExponent]
    omega
  have amount : (0 - -count : Int).toNat = count := by omega
  have order : compare (value : Int) 0 = .gt := Int.compare_eq_gt.mpr (by omega)
  obtain ⟨least, below⟩ := shifted_mem_range positive split
  have rounded := roundWithAccuracy_mul .positive (-count) 0 least below (by omega)
  rw [pow_zero, Nat.mul_one, Int.natCast_zero, Int.sub_zero] at rounded
  simp only [UnpackedFloat.ofNat, UnpackedFloat.ofInt, UnpackedFloat.normalize, order,
    Int.toNat_natCast, UnpackedFloat.round, target, decreaseExponent, amount, Nat.shiftLeft_eq]
  rwa [Int.zero_sub]

theorem unpack_toFloat (positive : 0 < value) (split : value.log2 + count = 52) :
    value.toUInt64.toFloat.toModel.unpack =
      .finite .positive (value * 2 ^ count) (-count) (Nat.mul_pos positive (Nat.two_pow_pos _)) := by
  obtain ⟨least, below⟩ := shifted_mem_range positive split
  have short : value < 2 ^ 53 := (Nat.log2_lt positive.ne').mp (by omega)
  have fits : value.toUInt64.toNat = value := by
    rw [Nat.toUInt64, UInt64.toNat_ofNat']
    omega
  change (Float.Model.pack (UnpackedFloat.ofNat .binary64 value.toUInt64.toNat)).unpack = _
  rw [fits, ofNat_eq positive split]
  exact unpack_pack_normal least below (by omega) (by omega)

/-- Then it is multiplied by one, which changes nothing. -/
theorem ofNat_short (positive : 0 < value) (split : value.log2 + count = 52) :
    Float.ofNat value = .ofModel (.pack (.finite .positive (value * 2 ^ count) (-count)
      (Nat.mul_pos positive (Nat.two_pow_pos _)))) := by
  obtain ⟨least, below⟩ := shifted_mem_range positive split
  have short : value < 2 ^ 53 := (Nat.log2_lt positive.ne').mp (by omega)
  have fast : Float.ofNat value = value.toUInt64.toFloat * Float.ofBits 0x3FF0000000000000 :=
    dif_pos ⟨short, Nat.zero_le 22⟩
  have one : (Float.ofBits 0x3FF0000000000000).toModel.unpack =
      .finite .positive (2 ^ 52) (-52) (Nat.two_pow_pos 52) := rfl
  have rounded := roundWithAccuracy_mul (.positive * .positive) (-count) 52 least below (by omega)
  rw [fast]
  change Float.ofModel (.pack (UnpackedFloat.mul .binary64 value.toUInt64.toFloat.toModel.unpack
    (Float.ofBits 0x3FF0000000000000).toModel.unpack)) = _
  rw [one, unpack_toFloat positive split]
  exact congrArg (fun number => Float.ofModel (.pack number)) rounded

/-- A long whole number is moved to the left and rounded. -/
theorem ofNat_long (long : 2 ^ 53 ≤ value) :
    Float.ofNat value =
      .ofModel (.pack (roundWithAccuracy .binary64 .positive (value * 2 ^ 53) (-53) .exact)) := by
  have slow : Float.ofNat value = .ofModel (.ofScientific value 0) :=
    dif_neg fun both => by omega
  have nonzero : value ≠ 0 := by omega
  have inRange : ¬ (0 : Int) > 2 ^ 11 := by omega
  have inRangeToo : ¬ (0 : Int) < -((2 ^ 11 : Int) + value.log2) := by omega
  have width : Format.binary64.mantissaBits = 53 := rfl
  have scientific : UnpackedFloat.ofScientific .binary64 value 0 =
      roundWithAccuracy .binary64 .positive (value * 2 ^ 53) (-53) .exact := by
    rw [UnpackedFloat.ofScientific, dif_neg nonzero, if_neg inRange, if_neg inRangeToo,
      if_pos (Int.le_refl 0)]
    simp only [UnpackedFloat.mul, width, Nat.shiftLeft_eq, Int.toNat_zero, pow_zero, Nat.mul_one]
    rfl
  rw [slow, Float.Model.ofScientific, scientific]

/-- Rounding a long whole number leaves the nearest multiple of its spacing. -/
theorem denotes_long (long : 2 ^ 53 ≤ value) (small : value < 2 ^ 64) :
    Denotes (roundWithAccuracy .binary64 .positive (value * 2 ^ 53) (-53) .exact)
      (Int.ofNat (nearestMultiple value)) := by
  have positive : 0 < value := by omega
  have most := log2_lt_of_lt positive small
  have digits : 53 ≤ value.log2 := (Nat.le_log2 positive.ne').mpr long
  obtain ⟨more, split⟩ := Nat.exists_eq_add_of_le' (Nat.le_of_succ_le digits)
  have width : spacing value = 2 ^ more := by rw [spacing, split, Nat.add_sub_cancel]
  have shiftedDigits : (value * 2 ^ 53).log2 = 52 + (more + 53) := by
    rw [log2_mul_two_pow positive]
    omega
  have same : halfEven (value * 2 ^ 53) (2 ^ (more + 53)) = halfEven value (2 ^ more) := by
    rw [pow_add, halfEven_mul_mul (Nat.two_pow_pos 53)]
  obtain ⟨leastHalf, -⟩ := halfEven_mem_range shiftedDigits
  rw [nearestMultiple, width, ← same]
  rcases roundWithAccuracy_eq .positive (-53) shiftedDigits (by omega) with
    ⟨positive, shorter, rounded⟩ | ⟨longer, rounded⟩
  · have exponent : (-53 + (more + 53 : Nat) : Int) = more := by omega
    rw [rounded, exponent]
    exact .of_natCast leastHalf shorter (by omega)
  · have exponent : (-53 + (more + 53 : Nat) + 1 : Int) = (more + 1 : Nat) := by omega
    have magnitude : 2 ^ 53 * 2 ^ more = 2 ^ 52 * 2 ^ (more + 1) := by ring
    rw [rounded, longer, exponent, magnitude]
    exact .of_natCast (Nat.le_refl _) (by omega) (by omega)

/-- A whole number of 64 bits is converted to the nearest multiple of its spacing. -/
theorem exists_ofNat (small : value < 2 ^ 64) : ∃ number,
    Float.ofNat value = .ofModel (.pack number) ∧
      Denotes number (Int.ofNat (nearestMultiple value)) := by
  rcases Nat.lt_or_ge value (2 ^ 53) with short | long
  · rw [nearestMultiple_eq_self short]
    rcases Nat.eq_zero_or_pos value with rfl | positive
    · exact ⟨.zero .positive, rfl, .zero _⟩
    · have digits := log2_lt_of_lt positive short
      obtain ⟨count, split⟩ := Nat.exists_eq_add_of_le (Nat.le_of_lt_succ digits)
      obtain ⟨least, below⟩ := shifted_mem_range positive split.symm
      refine ⟨_, ofNat_short positive split.symm, ?_⟩
      exact .normal least below (by omega) (by omega) (by simp)
  · exact ⟨_, ofNat_long long, denotes_long long small⟩

end

/-- An integer of 64 bits is converted to the binary64 number nearest to it. -/
theorem exists_ofInt {value : Int} (small : value.natAbs < 2 ^ 64) : ∃ number,
    Float.ofInt value = .ofModel (.pack number) ∧ Denotes number (toNearest value) := by
  obtain ⟨number, converted, denotes⟩ := exists_ofNat small
  cases value with
  | ofNat magnitude => exact ⟨number, converted, denotes⟩
  | negSucc magnitude =>
      have negative : toNearest (.negSucc magnitude) =
          -Int.ofNat (nearestMultiple (Int.negSucc magnitude).natAbs) :=
        if_pos (Int.negSucc_lt_zero magnitude)
      refine ⟨number.neg, ?_, negative ▸ denotes.neg⟩
      change Float.neg (Float.ofNat (magnitude + 1)) = _
      rw [Int.natAbs_negSucc] at converted
      rw [converted]
      change Float.ofModel (.pack (Float.Model.pack number).unpack.neg) = _
      rw [denotes.unpack_pack]

section

variable {value : Int}

theorem isFinite_ofInt (small : value.natAbs < 2 ^ 64) : (Float.ofInt value).isFinite = true := by
  obtain ⟨number, converted, denotes⟩ := exists_ofInt small
  rw [converted]
  exact denotes.isFinite

theorem toInteger_ofInt (small : value.natAbs < 2 ^ 64) :
    toInteger (Float.ofInt value) = held value := by
  obtain ⟨number, converted, denotes⟩ := exists_ofInt small
  rw [converted, toInteger, denotes.truncated, held]

theorem natAbs_lt (least : integerMin ≤ value) (greatest : value ≤ integerMax) :
    value.natAbs < 2 ^ 64 := by
  rw [integerMin] at least
  rw [integerMax] at greatest
  omega

end

end MotionSteps.Number
