import MotionSteps.Proofs.Json.Readable

/-!
# Printed numbers are read back

The digits of an integer have no zero in front and spell that integer, and the reader gathers
all of them as long as the number stays below its limit. So every integer of 64 bits, signed
or not, is read back as it was printed, the least and the greatest included. Whether a
binary64 number comes back stays a question of its own, which `Number.ReadsBack` asks.
-/

namespace MotionSteps.Json

namespace Numeral

/-! ## Digits without a zero in front -/

/-- The digits of a positive number do not begin with a zero. The induction takes the last
digit off. -/
theorem exists_toDigits_cons {value : Nat} (positive : 0 < value) :
    ∃ digit digits, Nat.toDigits 10 value = digit :: digits ∧ digit ≠ '0' := by
  induction value using Nat.strongRecOn with
  | ind value inductionHypothesis =>
      rcases Nat.lt_or_ge value 10 with small | large
      · refine ⟨Nat.digitChar value, [], Nat.toDigits_of_lt_base small, ?_⟩
        have nonzero : ∀ digit < 10, 0 < digit → Nat.digitChar digit ≠ '0' := by decide
        exact nonzero value small positive
      · obtain ⟨digit, digits, same, nonzero⟩ :=
          inductionHypothesis (value / 10) (by omega) (by omega)
        refine ⟨digit, digits ++ [Nat.digitChar (value % 10)], ?_, nonzero⟩
        rw [Nat.toDigits_of_base_le (by decide) large, same, List.cons_append]

theorem isDigit_of_mem_toDigits {value : Nat} {c : Char} (member : c ∈ Nat.toDigits 10 value) :
    c.isDigit = true :=
  Nat.isDigit_of_mem_toDigits (by decide) (Nat.le_refl _) member

theorem scanDigits_toDigits (atEnd : Cause) (value : Nat) :
    scanDigits atEnd (Nat.toDigits 10 value) = .ok (Nat.toDigits 10 value, []) := by
  have numeric : ∀ c ∈ Nat.toDigits 10 value, c.isDigit = true := fun _ => isDigit_of_mem_toDigits
  have split : splitDigits (Nat.toDigits 10 value ++ []) = (Nat.toDigits 10 value, []) := by
    rw [splitDigits, List.takeWhile_append_of_pos numeric, List.dropWhile_append_of_pos numeric,
      List.takeWhile_nil, List.dropWhile_nil, List.append_nil]
  rw [List.append_nil] at split
  cases digits : Nat.toDigits 10 value with
  | nil => exact absurd digits Nat.toDigits_ne_nil
  | cons digit rest =>
      rw [digits] at numeric split
      simp only [scanDigits, numeric digit List.mem_cons_self, if_true, split]

/-- The digits of a number are the whole part of a numeral. -/
theorem scanWhole_toDigits (atEnd : Cause) (value : Nat) :
    scanWhole atEnd (Nat.toDigits 10 value) = .ok (Nat.toDigits 10 value, []) := by
  rcases Nat.eq_zero_or_pos value with rfl | positive
  · rfl
  · rw [← scanDigits_toDigits atEnd value]
    obtain ⟨digit, digits, same, nonzero⟩ := exists_toDigits_cons positive
    rw [same]
    unfold scanWhole
    split
    · next zero => exact absurd (List.cons.inj zero).1 nonzero
    · rfl

/-- Digits are gathered as the number that they spell if it is below the limit. -/
theorem gather_eq_of_lt {significand : Nat} {digits : List Char}
    (below : Nat.ofDigitChars 10 digits significand < significandLimit) :
    gather significand digits = (Nat.ofDigitChars 10 digits significand, []) := by
  induction digits generalizing significand with
  | nil => rfl
  | cons digit digits inductionHypothesis =>
      rw [Nat.ofDigitChars_cons, Nat.mul_comm] at below ⊢
      have grows : ∀ start, start ≤ Nat.ofDigitChars 10 digits start := by
        intro start
        rw [Nat.ofDigitChars_eq_ofDigitChars_zero]
        exact Nat.le_add_right_of_le (Nat.le_mul_of_pos_left start (Nat.pow_pos (by decide)))
      have next := Nat.lt_of_le_of_lt (grows _) below
      rw [gather]
      simp only [if_pos next, inductionHypothesis below]

theorem gather_toDigits {value : Nat} (below : value < significandLimit) :
    gather 0 (Nat.toDigits 10 value) = (value, []) := by
  rw [gather_eq_of_lt (by rwa [Nat.ofDigitChars_ten_toDigits]), Nat.ofDigitChars_ten_toDigits]

/-! ## Integers of 64 bits -/

/-- The text of an integer is a numeral without fraction and exponent. -/
theorem scan_integerText (atEnd : Cause) (value : Int) :
    scan atEnd (MotionSteps.Number.integerText value).toList =
      .ok (⟨decide (value < 0), Nat.toDigits 10 value.natAbs, none, none⟩, []) := by
  have unsigned : splitMinus (Nat.toDigits 10 value.natAbs) =
      (false, Nat.toDigits 10 value.natAbs) := by
    unfold splitMinus
    split
    · next minus =>
        have numeric : '-'.isDigit = true := isDigit_of_mem_toDigits (by rw [minus]; simp)
        cases numeric
    · rfl
  have rest := scanWhole_toDigits atEnd value.natAbs
  unfold MotionSteps.Number.integerText MotionSteps.Number.naturalText
  split
  · next negative =>
      have text : ("-" ++ String.ofList (Nat.toDigits 10 value.natAbs)).toList =
          '-' :: Nat.toDigits 10 value.natAbs := by simp
      simp only [scan, text, splitMinus, rest, bind, Except.bind, scanFraction, scanExponent, pure,
        Except.pure, decide_eq_true negative]
  · next positive =>
      simp only [scan, String.toList_ofList, unsigned, rest, bind, Except.bind, scanFraction,
        scanExponent, pure, Except.pure, decide_eq_false positive]

/-- A numeral of digits alone stands for an integer as long as 64 bits hold it. -/
theorem value_integer {value : Int} (least : MotionSteps.Number.integerMin ≤ value)
    (below : value < significandLimit) :
    Numeral.value ⟨decide (value < 0), Nat.toDigits 10 value.natAbs, none, none⟩ =
      .ok (.integer value) := by
  have limit : significandLimit = 18446744073709551616 := rfl
  have floor : Nat.pow 2 63 = 9223372036854775808 := rfl
  rw [limit] at below
  unfold MotionSteps.Number.integerMin at least
  have gathered : gather 0 (Nat.toDigits 10 value.natAbs) = (value.natAbs, []) := by
    apply gather_toDigits
    rw [limit]
    omega
  simp only [Numeral.value, gathered, Option.getD_none, gather, Option.isSome_none, floor,
    List.isEmpty_nil, Bool.not_true, Bool.or_self, Bool.false_eq_true, if_false]
  by_cases negative : value < 0
  · have fits : ¬ (value.natAbs = 0 ∨ 9223372036854775808 < value.natAbs) := by omega
    simp only [decide_eq_true negative, Bool.not_true, Bool.false_eq_true, if_false]
    rw [if_neg (by simpa using fits)]
    congr 2
    simp only [Int.ofNat_eq_natCast]
    omega
  · simp only [decide_eq_false negative, Bool.not_false, if_true]
    congr 2
    simp only [Int.ofNat_eq_natCast]
    omega

end Numeral

/-- Every integer of 64 bits, signed or not, is read back. -/
theorem Number.readsBack_integer {value : Int} (least : MotionSteps.Number.integerMin ≤ value)
    (below : value < Numeral.significandLimit) : (Number.integer value).ReadsBack := by
  have scanned := Numeral.scan_integerText .endInValue value
  simp only [ReadsBack, reread?, Numeral.read, text, scanned, Numeral.value_integer least below]

/-! ## Fields that hold numbers -/

namespace Reads

/-- A field of binary64 numbers takes the number that comes back. -/
theorem float {number found : Number} (same : number.reread? = some found) :
    Reads Reader.float (.number number) found.toFloat := by
  intro layout lawful depth blanks rest blank delimited
  simp only [Reader.float, Reader.ofHead, chars, Head.read_number blank same delimited]

/-- A field of integers takes every integer that a signed 64-bit field holds. -/
theorem integer {value : Int} (least : MotionSteps.Number.integerMin ≤ value)
    (greatest : value ≤ MotionSteps.Number.integerMax) :
    Reads Reader.integer (.number (.integer value)) value := by
  have below : value < Numeral.significandLimit :=
    Int.lt_of_le_of_lt greatest (by decide)
  intro layout lawful depth blanks rest blank delimited
  have ran := Head.read_number blank (Number.readsBack_integer least below) delimited
  simp only [Reader.integer, Reader.ofHead, chars, ran, if_pos greatest]

end Reads

end MotionSteps.Json
