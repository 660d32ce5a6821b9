import MotionSteps.Text.Blank
import MotionSteps.Text.Uppercase

/-!
# Capitals of capitals

A text that was trimmed and put in capitals is not changed by doing so again. That the
capitals have no other capitals, and that none of them is blank, are facts about the table:
the code points that it yields are set against those that it maps and those that are blank.
The sets are held as the bits of one number each, so that the comparison is one operation.
-/

namespace MotionSteps.Text

namespace Uppercase

/-- Codes as the bits of a number. -/
def bits : List Nat → Nat
  | [] => 0
  | code :: codes => 1 <<< code ||| bits codes

theorem testBit_bits {codes : List Nat} {code : Nat} :
    (bits codes).testBit code = true ↔ code ∈ codes := by
  induction codes with
  | nil => simp [bits]
  | cons first codes inductionHypothesis =>
      rw [bits, Nat.testBit_or, Bool.or_eq_true, inductionHypothesis, Nat.one_shiftLeft,
        Nat.testBit_two_pow, decide_eq_true_iff, List.mem_cons, eq_comm]

/-- Two lists of codes have none in common if their bits have none. -/
theorem notMem_of_bits_and {codes others : List Nat} (apart : bits codes &&& bits others = 0)
    {code : Nat} (member : code ∈ codes) : code ∉ others := by
  intro other
  have both : (bits codes &&& bits others).testBit code = true := by
    rw [Nat.testBit_and, testBit_bits.mpr member, testBit_bits.mpr other]
    rfl
  rw [apart, Nat.zero_testBit] at both
  cases both

/-- The codes of a run. -/
def Shift.codes (run : Shift) : List Nat :=
  (List.range ((run.last - run.first) / run.stride + 1)).map fun index =>
    run.first + index * run.stride

theorem Shift.mem_codes {run : Shift} {code : Nat} (covered : run.covers code = true) :
    code ∈ run.codes := by
  simp only [covers, Bool.and_eq_true, decide_eq_true_eq, beq_iff_eq] at covered
  obtain ⟨⟨low, high⟩, strides⟩ := covered
  refine List.mem_map.mpr ⟨(code - run.first) / run.stride, List.mem_range.mpr ?_, ?_⟩
  · exact Nat.lt_succ_of_le (Nat.div_le_div_right (by omega))
  · rw [Nat.div_mul_cancel (Nat.dvd_of_mod_eq_zero strides)]
    omega

/-- The codes beyond ASCII that have an image of their own. -/
def mappedCodes : List Nat :=
  expansions.map Prod.fst ++ shifts.flatMap Shift.codes

/-- The images of all codes beyond ASCII. -/
def imageCodes : List Nat :=
  expansions.flatMap Prod.snd ++ shifts.flatMap fun run => run.codes.map run.image

/-- The codes of the small letters of ASCII. -/
def smallCodes : List Nat :=
  List.range' 0x61 26

/-- The codes of the blank characters. -/
def blankCodes : List Nat :=
  List.range' 9 5 ++ [0x20, 0x85, 0xA0, 0x1680] ++ List.range' 0x2000 11 ++
    [0x2028, 0x2029, 0x202F, 0x205F, 0x3000]

/-- No image has an image of its own, is a small letter or is blank. -/
theorem bits_imageCodes :
    bits imageCodes &&& bits (mappedCodes ++ smallCodes ++ blankCodes) = 0 := by
  decide +kernel

theorem isValidChar_of_mem_imageCodes : ∀ code ∈ imageCodes, code.isValidChar := by
  decide +kernel

theorem toNat_ofNat_of_mem_imageCodes {code : Nat} (image : code ∈ imageCodes) :
    (Char.ofNat code).toNat = code := by
  rw [Char.ofNat, dif_pos (isValidChar_of_mem_imageCodes code image)]
  rfl

theorem not_isBlank_of_mem_imageCodes {code : Nat} (image : code ∈ imageCodes) :
    isBlank (Char.ofNat code) = false := by
  cases blank : isBlank (Char.ofNat code) with
  | false => rfl
  | true =>
      refine absurd ?_ (notMem_of_bits_and bits_imageCodes image)
      simp only [isBlank, toNat_ofNat_of_mem_imageCodes image, Bool.or_eq_true, Bool.and_eq_true,
        decide_eq_true_eq, beq_iff_eq] at blank
      simp only [blankCodes, List.mem_append, List.mem_range'_1, List.mem_cons, List.not_mem_nil]
      omega

theorem codes_of_notMem_mappedCodes {code : Nat} (plain : code ∉ mappedCodes) :
    codes code = [code] := by
  simp only [mappedCodes, List.mem_append, not_or] at plain
  have noExpansion : expansions.find? (fun entry => entry.1 == code) = none := by
    rw [List.find?_eq_none]
    intro entry listed same
    exact plain.1 (List.mem_map.mpr ⟨entry, listed, eq_of_beq same⟩)
  have noShift : shifts.find? (fun run => run.covers code) = none := by
    rw [List.find?_eq_none]
    intro run listed covered
    exact plain.2 (List.mem_flatMap.mpr ⟨run, listed, Shift.mem_codes covered⟩)
  simp [codes, noExpansion, noShift]

/-- An image stands for itself. -/
theorem chars_of_mem_imageCodes {code : Nat} (image : code ∈ imageCodes) :
    chars (Char.ofNat code) = [Char.ofNat code] := by
  have apart := notMem_of_bits_and bits_imageCodes image
  simp only [List.mem_append, not_or] at apart
  unfold chars
  split
  · next ascii =>
      have notSmall : ¬ ((Char.ofNat code).val ≥ 'a'.val ∧ (Char.ofNat code).val ≤ 'z'.val) := by
        rintro ⟨above, below⟩
        have low : 'a'.toNat ≤ (Char.ofNat code).toNat := above
        have high : (Char.ofNat code).toNat ≤ 'z'.toNat := below
        rw [toNat_ofNat_of_mem_imageCodes image] at low high
        refine apart.1.2 (List.mem_range'_1.mpr ⟨low, ?_⟩)
        exact Nat.lt_of_le_of_lt high (by decide)
      have kept : (Char.ofNat code).toUpper = Char.ofNat code := dif_neg notSmall
      rw [kept]
  · rw [toNat_ofNat_of_mem_imageCodes image, codes_of_notMem_mappedCodes apart.1.1]
    rfl

/-- A character beyond ASCII stands for itself or for characters out of the table. -/
theorem codes_eq_or_subset (code : Nat) :
    codes code = [code] ∨ codes code ≠ [] ∧ codes code ⊆ imageCodes := by
  have filled : ∀ entry ∈ expansions, entry.2 ≠ [] := by decide +kernel
  unfold codes
  split
  · next entry found =>
      have listed := List.mem_of_find?_eq_some found
      refine .inr ⟨filled entry listed, fun image member => ?_⟩
      exact List.mem_append_left _ (List.mem_flatMap.mpr ⟨entry, listed, member⟩)
  · split
    · next run found =>
        have covered := List.find?_some found
        have listed := List.mem_of_find?_eq_some found
        refine .inr ⟨by simp, fun image member => ?_⟩
        rw [List.mem_singleton.mp member]
        refine List.mem_append_right _ (List.mem_flatMap.mpr ⟨run, listed, ?_⟩)
        exact List.mem_map_of_mem (Shift.mem_codes covered)
    · exact .inl rfl

theorem toUpper_of_ascii : ∀ code < 0x80,
    chars (Char.ofNat code).toUpper = [(Char.ofNat code).toUpper] ∧
      (isBlank (Char.ofNat code) = false → isBlank (Char.ofNat code).toUpper = false) := by
  decide +kernel

/-- A character of an image stands for itself, and it is blank only if the character it is
an image of is. -/
theorem chars_of_mem_chars {c image : Char} (member : image ∈ chars c) :
    chars image = [image] ∧ (isBlank c = false → isBlank image = false) := by
  by_cases ascii : c.toNat < 0x80
  · rw [chars_of_ascii ascii, List.mem_singleton] at member
    have capital := toUpper_of_ascii c.toNat ascii
    rw [Char.ofNat_toNat] at capital
    rwa [member]
  · have beyond : chars c = (codes c.toNat).map Char.ofNat := by simp [chars, ascii]
    rcases codes_eq_or_subset c.toNat with same | ⟨-, listed⟩
    · rw [same, List.map_singleton, Char.ofNat_toNat] at beyond
      rw [beyond, List.mem_singleton] at member
      rw [member]
      exact ⟨beyond, id⟩
    · rw [beyond] at member
      obtain ⟨code, inside, rfl⟩ := List.mem_map.mp member
      exact ⟨chars_of_mem_imageCodes (listed inside),
        fun _ => not_isBlank_of_mem_imageCodes (listed inside)⟩

theorem chars_ne_nil (c : Char) : chars c ≠ [] := by
  by_cases ascii : c.toNat < 0x80
  · simp [chars_of_ascii ascii]
  · rw [chars, if_neg ascii, ne_eq, List.map_eq_nil_iff]
    rcases codes_eq_or_subset c.toNat with same | ⟨filled, -⟩
    · simp [same]
    · exact filled

end Uppercase

theorem uppercaseChars_eq_self {text : List Char}
    (capitals : ∀ c ∈ text, Uppercase.chars c = [c]) : uppercaseChars text = text := by
  induction text with
  | nil => rfl
  | cons c text inductionHypothesis =>
      obtain ⟨capital, others⟩ := List.forall_mem_cons.mp capitals
      rw [uppercaseChars, List.flatMap_cons, capital, ← uppercaseChars, inductionHypothesis others,
        List.singleton_append]

/-- Capitals have no other capitals. -/
theorem uppercaseChars_uppercaseChars (text : List Char) :
    uppercaseChars (uppercaseChars text) = uppercaseChars text := by
  refine uppercaseChars_eq_self fun image member => ?_
  obtain ⟨c, -, inside⟩ := List.mem_flatMap.mp member
  exact (Uppercase.chars_of_mem_chars inside).1

/-! ## Trimmed texts -/

/-- A text that has no blank character at either end. -/
structure Trimmed (text : List Char) : Prop where
  front : ∀ c ∈ text.head?, isBlank c = false
  back : ∀ c ∈ text.getLast?, isBlank c = false

theorem dropWhile_isBlank_eq_self {text : List Char} (front : ∀ c ∈ text.head?, isBlank c = false) :
    text.dropWhile isBlank = text := by
  cases text with
  | nil => rfl
  | cons c text => rw [List.dropWhile_cons_of_neg (by simp [front c rfl])]

theorem not_isBlank_head?_dropWhile (text : List Char) :
    ∀ c ∈ (text.dropWhile isBlank).head?, isBlank c = false := by
  intro c first
  have notBlank := List.head?_dropWhile_not isBlank text
  rw [Option.mem_def.mp first] at notBlank
  simpa using notBlank

theorem Trimmed.trimChars_eq {text : List Char} (trimmed : Trimmed text) :
    trimChars text = text := by
  rw [trimChars, dropWhile_isBlank_eq_self trimmed.front, dropWhile_isBlank_eq_self,
    List.reverse_reverse]
  rw [List.head?_reverse]
  exact trimmed.back

/-- What is blank around a trimmed text is trimmed from it. -/
theorem Trimmed.trimChars_append {before text after : List Char} (trimmed : Trimmed text)
    (filled : text ≠ []) (blankBefore : ∀ c ∈ before, isBlank c = true)
    (blankAfter : ∀ c ∈ after, isBlank c = true) :
    trimChars (before ++ (text ++ after)) = text := by
  have front : ∀ c ∈ (text ++ after).head?, isBlank c = false := by
    obtain ⟨c, rest, rfl⟩ := List.exists_cons_of_ne_nil filled
    exact trimmed.front
  have back : ∀ c ∈ text.reverse.head?, isBlank c = false := by
    rw [List.head?_reverse]
    exact trimmed.back
  rw [trimChars, List.dropWhile_append_of_pos blankBefore, dropWhile_isBlank_eq_self front,
    List.reverse_append, List.dropWhile_append_of_pos fun c member =>
      blankAfter c (List.mem_reverse.mp member), dropWhile_isBlank_eq_self back,
    List.reverse_reverse]

theorem trimmed_trimChars (text : List Char) : Trimmed (trimChars text) := by
  constructor
  · intro c first
    have leading := (List.dropWhile_suffix isBlank
      (l := (text.dropWhile isBlank).reverse)).reverse
    rw [List.reverse_reverse] at leading
    obtain ⟨behind, whole⟩ := leading
    refine not_isBlank_head?_dropWhile text c ?_
    rw [← whole, List.head?_append, Option.mem_def, ← trimChars, Option.mem_def.mp first]
    rfl
  · intro c last
    rw [trimChars, List.getLast?_reverse] at last
    exact not_isBlank_head?_dropWhile _ c last

/-- A trimmed text in capitals is trimmed. -/
theorem Trimmed.uppercaseChars {text : List Char} (trimmed : Trimmed text) :
    Trimmed (uppercaseChars text) := by
  constructor
  · intro image first
    cases text with
    | nil => cases first
    | cons c text =>
        obtain ⟨leading, others, image_c⟩ :=
          List.exists_cons_of_ne_nil (Uppercase.chars_ne_nil c)
        rw [Text.uppercaseChars, List.flatMap_cons, image_c] at first
        obtain rfl : leading = image := Option.some.inj first
        exact (Uppercase.chars_of_mem_chars (by simp [image_c])).2 (trimmed.front c rfl)
  · intro image last
    rcases List.eq_nil_or_concat text with rfl | ⟨before, c, rfl⟩
    · cases last
    · rw [List.concat_eq_append] at trimmed last
      rw [Text.uppercaseChars, List.flatMap_append, List.flatMap_singleton, List.getLast?_append,
        List.getLast?_eq_some_getLast (Uppercase.chars_ne_nil c), Option.some_or] at last
      obtain rfl := Option.some.inj last
      exact (Uppercase.chars_of_mem_chars (List.getLast_mem _)).2 (trimmed.back c (by simp))

/-- Capitals of capitals are the same. -/
theorem uppercase_uppercase (text : String) : uppercase (uppercase text) = uppercase text := by
  rw [← String.toList_inj]
  simp only [toList_uppercase, uppercaseChars_uppercaseChars]

/-- The capitals of a trimmed text have no blanks at the ends. -/
theorem trim_uppercase_trim (text : String) :
    trim (uppercase (trim text)) = uppercase (trim text) := by
  rw [← String.toList_inj]
  simp only [toList_uppercase, toList_trim]
  rw [(trimmed_trimChars text.toList).uppercaseChars.trimChars_eq]

/-- Trimming a trimmed text in capitals and putting it in capitals changes nothing. -/
theorem uppercase_trim_uppercase_trim (text : String) :
    uppercase (trim (uppercase (trim text))) = uppercase (trim text) := by
  rw [trim_uppercase_trim, uppercase_uppercase]

end MotionSteps.Text
