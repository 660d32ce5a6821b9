import Mathlib
import MotionSteps.Json.Printer
import MotionSteps.Proofs.Text.Uppercase

/-!
# Lines

A text falls into lines at its line breaks. Numbers and compact JSON texts are on one line,
whatever stands in their strings, and capitals bring no line break with them. A line of a text
begins with a mark if the text does, or if the mark stands behind a line break.
-/

namespace MotionSteps

namespace Text

/-- What stands between the line breaks of a text, before the first and behind the last. -/
def lines (text : String) : List String :=
  (text.toList.splitOn '\n').map String.ofList

/-- The number of line breaks in a text. -/
def breaks (text : String) : Nat :=
  text.toList.count '\n'

@[simp] theorem breaks_append (text rest : String) :
    breaks (text ++ rest) = breaks text + breaks rest := by
  rw [breaks, String.toList_append, List.count_append]
  rfl

theorem breaks_eq_zero_iff {text : String} : breaks text = 0 ↔ '\n' ∉ text.toList :=
  List.count_eq_zero

theorem length_splitOn (text : List Char) :
    (text.splitOn '\n').length = text.count '\n' + 1 := by
  induction text with
  | nil => rfl
  | cons c text inductionHypothesis =>
      rw [List.splitOn_cons_eq_if_modifyHead, List.count_cons]
      split
      · simp [inductionHypothesis]
      · simp [inductionHypothesis]

theorem length_lines (text : String) : (lines text).length = breaks text + 1 := by
  rw [lines, List.length_map, length_splitOn, breaks]

/-- A text without line breaks is its only line. -/
theorem lines_of_breaks {text : String} (plain : breaks text = 0) : lines text = [text] := by
  rw [lines, List.splitOn_eq_singleton (breaks_eq_zero_iff.mp plain), List.map_singleton,
    String.ofList_toList]

/-- A line break ends one line and begins another. -/
theorem lines_break (text rest : String) :
    lines (text ++ "\n" ++ rest) = lines text ++ lines rest := by
  have split : (text ++ "\n" ++ rest).toList = text.toList ++ '\n' :: rest.toList := by simp
  rw [lines, split, List.splitOn_append_cons_self, List.map_append]
  rfl

theorem lines_join (texts : List String) :
    lines (String.join (texts.map fun text => text ++ "\n")) = texts.flatMap lines ++ [""] := by
  induction texts with
  | nil => rfl
  | cons text texts inductionHypothesis =>
      rw [List.map_cons, String.join_cons, lines_break, inductionHypothesis, List.flatMap_cons,
        List.append_assoc]

/-- Texts without line breaks are put together by a separator without them on one line. -/
theorem breaks_intercalate {separator : String} {texts : List String}
    (joined : breaks separator = 0) (plain : ∀ text ∈ texts, breaks text = 0) :
    breaks (separator.intercalate texts) = 0 := by
  rw [breaks, String.toList_intercalate]
  induction texts with
  | nil => rfl
  | cons text texts inductionHypothesis =>
      obtain ⟨first, others⟩ := List.forall_mem_cons.mp plain
      by_cases last : texts = []
      · rw [last, List.map_singleton, List.intercalate_singleton]
        exact first
      · rw [List.map_cons, List.intercalate_cons_of_ne_nil (by simpa using last),
          List.count_append, List.count_append, inductionHypothesis others, Nat.add_zero]
        exact Nat.add_eq_zero_iff.mpr ⟨first, joined⟩

/-- The number of line breaks in several texts. -/
def breaksIn (texts : List String) : Nat :=
  (texts.map breaks).sum

@[simp] theorem breaksIn_nil : breaksIn [] = 0 := rfl

@[simp] theorem breaksIn_cons (text : String) (texts : List String) :
    breaksIn (text :: texts) = breaks text + breaksIn texts := by
  rw [breaksIn, List.map_cons, List.sum_cons, breaksIn]

@[simp] theorem breaksIn_append (texts others : List String) :
    breaksIn (texts ++ others) = breaksIn texts + breaksIn others := by
  rw [breaksIn, List.map_append, List.sum_append, breaksIn, breaksIn]

theorem breaksIn_flatMap {α : Type} (items : List α) (texts : α → List String) :
    breaksIn (items.flatMap texts) = (items.map fun item => breaksIn (texts item)).sum := by
  induction items with
  | nil => rfl
  | cons item items inductionHypothesis =>
      rw [List.flatMap_cons, breaksIn_append, inductionHypothesis, List.map_cons, List.sum_cons]

/-- Some texts have a line each, and one more for each of their line breaks. -/
theorem length_flatMap_lines (texts : List String) :
    (texts.flatMap lines).length = texts.length + breaksIn texts := by
  induction texts with
  | nil => rfl
  | cons text texts inductionHypothesis =>
      rw [List.flatMap_cons, List.length_append, length_lines, inductionHypothesis,
        List.length_cons, breaksIn_cons]
      omega

/-- Texts without line breaks are their own lines. -/
theorem flatMap_lines_eq_self {texts : List String} (plain : breaksIn texts = 0) :
    texts.flatMap lines = texts := by
  induction texts with
  | nil => rfl
  | cons text texts inductionHypothesis =>
      rw [breaksIn_cons, Nat.add_eq_zero_iff] at plain
      rw [List.flatMap_cons, lines_of_breaks plain.1, inductionHypothesis plain.2,
        List.singleton_append]

/-! ## Marks at the beginning of a line -/

section

variable {mark front rest : List Char}

theorem prefix_append_cons_iff {c : Char} (fresh : c ∉ mark) :
    mark <+: front ++ c :: rest ↔ mark <+: front := by
  induction front generalizing mark with
  | nil =>
      cases mark with
      | nil => simp
      | cons first mark => simp [List.cons_prefix_cons, Ne.symm (List.ne_of_not_mem_cons fresh)]
  | cons first front inductionHypothesis =>
      cases mark with
      | nil => simp
      | cons other mark =>
          rw [List.cons_append, List.cons_prefix_cons, List.cons_prefix_cons,
            inductionHypothesis (List.not_mem_of_not_mem_cons fresh)]

/-- A mark does not reach across a character that is not in it. -/
theorem infix_append_cons_iff {c : Char} (fresh : c ∉ mark) (filled : mark ≠ []) :
    mark <:+: front ++ c :: rest ↔ mark <:+: front ∨ mark <:+: rest := by
  induction front with
  | nil =>
      have apart : ¬mark <+: c :: rest := by
        rw [← List.nil_append (c :: rest), prefix_append_cons_iff fresh, List.prefix_nil]
        exact filled
      rw [List.nil_append, List.infix_cons_iff, or_iff_right apart, List.infix_nil,
        or_iff_right filled]
  | cons first front inductionHypothesis =>
      rw [List.cons_append, List.infix_cons_iff, inductionHypothesis, List.infix_cons_iff,
        ← List.cons_append, prefix_append_cons_iff fresh, or_assoc]

/-- Whether a line of a text begins with a mark. -/
def Begins (mark text : List Char) : Prop :=
  mark <+: text ∨ '\n' :: mark <:+: text

instance (mark text : List Char) : Decidable (Begins mark text) :=
  inferInstanceAs (Decidable (mark <+: text ∨ '\n' :: mark <:+: text))

/-- A text without line breaks has one line to begin with a mark. -/
theorem begins_iff_of_notMem (plain : '\n' ∉ front) : Begins mark front ↔ mark <+: front :=
  or_iff_left fun broken => plain (broken.subset List.mem_cons_self)

theorem begins_append_break (oneLine : '\n' ∉ mark) (plain : '\n' ∉ front) :
    Begins mark (front ++ '\n' :: rest) ↔ mark <+: front ∨ Begins mark rest := by
  rw [Begins, prefix_append_cons_iff oneLine, Begins]
  refine or_congr_right ?_
  induction front with
  | nil => rw [List.nil_append, List.infix_cons_iff, List.cons_prefix_cons, and_iff_right rfl]
  | cons first front inductionHypothesis =>
      have apart : ¬ '\n' :: mark <+: first :: (front ++ '\n' :: rest) := by
        rw [List.cons_prefix_cons]
        exact fun same => List.ne_of_not_mem_cons plain same.1
      rw [List.cons_append, List.infix_cons_iff, or_iff_right apart,
        inductionHypothesis (List.not_mem_of_not_mem_cons plain)]

end

/-- The lines of a text are as `Begins` says. The induction takes the first line off. -/
theorem exists_splitOn_iff {mark : List Char} (oneLine : '\n' ∉ mark) (text : List Char) :
    (∃ line ∈ text.splitOn '\n', mark <+: line) ↔ Begins mark text := by
  by_cases broken : '\n' ∈ text
  · obtain ⟨front, rest, rfl, plain⟩ := List.eq_append_cons_of_mem broken
    have shorter : rest.length < (front ++ '\n' :: rest).length := by
      simp only [List.length_append, List.length_cons]
      omega
    rw [List.splitOn_append_cons_self_of_not_mem plain, begins_append_break oneLine plain,
      ← exists_splitOn_iff oneLine rest, List.exists_mem_cons_iff]
  · rw [List.splitOn_eq_singleton broken, begins_iff_of_notMem broken]
    simp
termination_by text.length

theorem exists_lines_iff {mark : List Char} (oneLine : '\n' ∉ mark) (text : String) :
    (∃ line ∈ lines text, mark <+: line.toList) ↔ Begins mark text.toList := by
  rw [← exists_splitOn_iff oneLine, lines]
  simp

/-! ## Texts on one line -/

theorem break_notMem_toDigits (value : Nat) : '\n' ∉ Nat.toDigits 10 value := by
  intro member
  have digit := Nat.isDigit_of_mem_toDigits (by decide) (Nat.le_refl _) member
  cases digit

theorem break_notMem_decimalChars {digits : List Char} (plain : '\n' ∉ digits) (leading : Int) :
    '\n' ∉ Number.decimalChars digits leading := by
  have taken : ∀ count, '\n' ∉ digits.take count := fun count member =>
    plain (List.mem_of_mem_take member)
  have dropped : ∀ count, '\n' ∉ digits.drop count := fun count member =>
    plain (List.mem_of_mem_drop member)
  have behindFirst : '\n' ∉ digits.tail := fun member => plain (List.mem_of_mem_tail member)
  have exponent := break_notMem_toDigits leading.natAbs
  unfold Number.decimalChars
  split
  · split
    · simp [plain]
    · dsimp only
      split <;> simp [taken, dropped]
  · dsimp only
    split <;> split <;> simp [taken, behindFirst, exponent]

@[simp] theorem breaks_naturalText (value : Nat) : breaks (Number.naturalText value) = 0 := by
  rw [breaks_eq_zero_iff, Number.naturalText, String.toList_ofList]
  exact break_notMem_toDigits value

theorem breaks_integerText (value : Int) : breaks (Number.integerText value) = 0 := by
  unfold Number.integerText
  split
  · rw [breaks_append, breaks_naturalText]
    rfl
  · exact breaks_naturalText _

theorem breaks_numberText (value : Float) : breaks (Number.text value) = 0 := by
  rw [breaks_eq_zero_iff, Number.text, String.toList_ofList]
  dsimp only
  have magnitude : ∀ chars leading, '\n' ∉ if (Dyadic.ofFloat value).significand = 0 then
      ['0', '.', '0'] else Number.decimalChars (Nat.toDigits 10 chars) leading := by
    intro chars leading
    split
    · decide
    · exact break_notMem_decimalChars (break_notMem_toDigits chars) leading
  split
  · rw [List.mem_cons, not_or]
    exact ⟨by decide, magnitude _ _⟩
  · exact magnitude _ _

end Text

namespace Json

open Text

theorem break_notMem_escaped (c : Char) : '\n' ∉ escaped c := by
  unfold escaped
  repeat' split
  all_goals try decide
  · next small =>
      have digits : ∀ code < 0x20, '\n' ∉ '\\' :: 'u' :: '0' :: '0' :: controlDigits code := by
        decide
      exact digits c.toNat small
  · next notBreak _ _ _ =>
      intro member
      rw [← List.mem_singleton.mp member] at notBreak
      exact notBreak rfl

theorem break_notMem_stringChars (text : String) : '\n' ∉ stringChars text := by
  simp [stringChars, break_notMem_escaped]

theorem breaks_text (value : Json.Number) : breaks value.text = 0 := by
  cases value with
  | integer value => exact breaks_integerText value
  | float value =>
      rw [Number.text]
      split
      · exact breaks_numberText value
      · rfl

@[simp] theorem Layout.compact_gap (depth : Nat) : Layout.compact.gap depth = [] := rfl

@[simp] theorem Layout.compact_colon : Layout.compact.colon = [':'] := rfl

mutual

theorem break_notMem_chars (depth : Nat) : ∀ value : Json, '\n' ∉ chars .compact depth value
  | .null | .bool true | .bool false | .array [] | .object [] => by simp [chars]
  | .number value => by
      rw [chars]
      exact breaks_eq_zero_iff.mp (breaks_text value)
  | .string text => by
      rw [chars]
      exact break_notMem_stringChars text
  | .array (item :: items) => by
      simp [chars, break_notMem_chars (depth + 1) item,
        break_notMem_itemsChars depth items]
  | .object ((key, value) :: members) => by
      simp [chars, break_notMem_stringChars key,
        break_notMem_chars (depth + 1) value, break_notMem_membersChars depth members]

theorem break_notMem_itemsChars (depth : Nat) :
    ∀ items : List Json, '\n' ∉ itemsChars .compact depth items
  | [] => by simp [itemsChars]
  | item :: items => by
      simp [itemsChars, break_notMem_chars (depth + 1) item,
        break_notMem_itemsChars depth items]

theorem break_notMem_membersChars (depth : Nat) :
    ∀ members : List (String × Json), '\n' ∉ membersChars .compact depth members
  | [] => by simp [membersChars]
  | (key, value) :: members => by
      simp [membersChars, break_notMem_stringChars key,
        break_notMem_chars (depth + 1) value, break_notMem_membersChars depth members]

end

/-- A compact text is on one line, whatever stands in its strings. -/
@[simp] theorem breaks_compact (value : Json) : breaks value.compact = 0 := by
  rw [breaks_eq_zero_iff, compact, String.toList_ofList]
  exact break_notMem_chars 0 value

end Json

namespace Text

/-! ## Capitals -/

/-- A blank is the capital of no other character. -/
theorem eq_of_isBlank_image {c image : Char} (member : image ∈ Uppercase.chars c)
    (blank : isBlank image = true) : image = c := by
  have capitals : ∀ code < 0x80, isBlank (Char.ofNat code).toUpper = true →
      (Char.ofNat code).toUpper = Char.ofNat code := by decide +kernel
  by_cases ascii : c.toNat < 0x80
  · rw [Uppercase.chars_of_ascii ascii, List.mem_singleton] at member
    have same := capitals c.toNat ascii
    rw [Char.ofNat_toNat, ← member] at same
    exact same blank
  · rw [Uppercase.chars, if_neg ascii] at member
    obtain ⟨code, listed, rfl⟩ := List.mem_map.mp member
    rcases Uppercase.codes_eq_or_subset c.toNat with same | ⟨-, images⟩
    · rw [same, List.mem_singleton] at listed
      rw [listed, Char.ofNat_toNat]
    · rw [Uppercase.not_isBlank_of_mem_imageCodes (images listed)] at blank
      cases blank

theorem break_mem_of_uppercase {text : String} (broken : '\n' ∈ (uppercase text).toList) :
    '\n' ∈ text.toList := by
  rw [toList_uppercase] at broken
  obtain ⟨c, member, inside⟩ := List.mem_flatMap.mp broken
  rwa [eq_of_isBlank_image inside (by decide)]

/-- No text in capitals has a small letter. -/
theorem small_notMem_uppercase (text : String) : 'e' ∉ (uppercase text).toList := by
  intro small
  rw [toList_uppercase] at small
  obtain ⟨c, -, inside⟩ := List.mem_flatMap.mp small
  exact absurd (Uppercase.chars_of_mem_chars inside).1 (by decide)

theorem mem_of_mem_trim {text : String} {c : Char} (member : c ∈ (trim text).toList) :
    c ∈ text.toList := by
  rw [toList_trim, trimChars, List.mem_reverse] at member
  have inner := (List.dropWhile_suffix _).subset member
  rw [List.mem_reverse] at inner
  exact (List.dropWhile_suffix _).subset inner

end Text

end MotionSteps
