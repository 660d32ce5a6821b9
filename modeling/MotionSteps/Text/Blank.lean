/-!
# Blank characters and trimming

Labels, sequence names and parameter documents are trimmed before they are
interpreted, and a text that is blank throughout counts as not given. Blank is
the Unicode property `White_Space`: it takes in the no-break spaces and the line
separators, but neither the zero-width space nor the byte order mark.
-/

namespace MotionSteps.Text

/-- Whether a character has the Unicode property `White_Space`. -/
def isBlank (c : Char) : Bool :=
  let code := c.toNat
  (9 ≤ code && code ≤ 13) || code == 0x20 || code == 0x85 || code == 0xA0 || code == 0x1680 ||
    (0x2000 ≤ code && code ≤ 0x200A) || code == 0x2028 || code == 0x2029 || code == 0x202F ||
    code == 0x205F || code == 0x3000

/-- A text without the blank characters at either end. -/
def trimChars (text : List Char) : List Char :=
  ((text.dropWhile isBlank).reverse.dropWhile isBlank).reverse

/-- A text without the blank characters at either end. -/
def trim (text : String) : String :=
  String.ofList (trimChars text.toList)

@[simp] theorem toList_trim (text : String) : (trim text).toList = trimChars text.toList := by
  simp [trim]

private theorem dropWhile_isBlank_eq_nil {text : List Char}
    (dropped : text.dropWhile isBlank = []) : text.all isBlank = true := by
  induction text with
  | nil => rfl
  | cons c rest inductionHypothesis =>
      by_cases blank : isBlank c = true
      · simp only [List.dropWhile_cons, blank, if_true] at dropped
        simp [blank, inductionHypothesis dropped]
      · simp [blank] at dropped

private theorem dropWhile_isBlank_of_all {text : List Char}
    (blank : text.all isBlank = true) : text.dropWhile isBlank = [] := by
  induction text with
  | nil => rfl
  | cons c rest inductionHypothesis =>
      simp only [List.all_cons, Bool.and_eq_true] at blank
      simp [blank.1, inductionHypothesis blank.2]

/-- Exactly the texts that are blank throughout are empty once trimmed. -/
theorem trimChars_eq_nil_iff (text : List Char) :
    trimChars text = [] ↔ text.all isBlank = true := by
  constructor
  · intro trimmed
    have reversed := dropWhile_isBlank_eq_nil (List.reverse_eq_nil_iff.mp trimmed)
    rw [List.all_reverse] at reversed
    have first : text.dropWhile isBlank = [] := by
      cases kept : text.dropWhile isBlank with
      | nil => rfl
      | cons c rest =>
          have head : isBlank c = false := by
            have nonempty : text.dropWhile isBlank ≠ [] := by simp [kept]
            simpa [kept] using List.head_dropWhile_not isBlank nonempty
          simp [kept, head] at reversed
    exact dropWhile_isBlank_eq_nil first
  · intro blank
    simp [trimChars, dropWhile_isBlank_of_all blank]

/-- A text is blank throughout. -/
def Blank (text : String) : Prop :=
  ∀ c ∈ text.toList, isBlank c = true

/-- Trimming leaves nothing of exactly the blank texts. -/
@[simp] theorem trim_eq_empty_iff (text : String) : trim text = "" ↔ Blank text := by
  rw [← String.toList_eq_nil_iff, toList_trim, trimChars_eq_nil_iff, List.all_eq_true, Blank]

end MotionSteps.Text
