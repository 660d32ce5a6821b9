import MotionSteps.Json.Reader.Head

/-!
# Printed tokens are read back

A reader that stands in front of a printed string takes exactly that string, whatever
characters are in it and whatever stands behind. A numeral has no end of its own, so it is
read whole only in front of a text that cannot go on with it: the end, or a `Delimited` rest.
Whether the number that comes back is the one that was printed is not decided here. It is
what `Number.reread?` says.
-/

namespace MotionSteps.Json

/-! ## Separators and delimiters -/

/-- Nothing but separators. -/
def Separators (text : List Char) : Prop :=
  ∀ c ∈ text, isSeparator c = true

theorem separators_nil : Separators [] := by
  intro c member
  cases member

/-- A character that may stand behind a value: a separator, a comma or a closing bracket. -/
def isDelimiter (c : Char) : Bool :=
  isSeparator c || c == ',' || c == ']' || c == '}'

/-- A text that a value may stand in front of. -/
def Delimited (rest : List Char) : Prop :=
  ∀ c ∈ rest.head?, isDelimiter c = true

theorem delimited_nil : Delimited [] := by
  intro c first
  cases first

theorem delimited_cons {c : Char} {rest : List Char} (delimiter : isDelimiter c = true) :
    Delimited (c :: rest) := by
  rintro first ⟨⟩
  exact delimiter

theorem isDelimiter_of_isSeparator {c : Char} (separator : isSeparator c = true) :
    isDelimiter c = true := by
  simp [isDelimiter, separator]

theorem isSeparator_of_not_isDelimiter {c : Char} (inside : isDelimiter c = false) :
    isSeparator c = false := by
  simp only [isDelimiter, Bool.or_eq_false_iff] at inside
  exact inside.1.1.1

theorem not_closer_of_not_isDelimiter {c : Char} (inside : isDelimiter c = false) :
    c ≠ ',' ∧ c ≠ ']' ∧ c ≠ '\x7d' := by
  refine ⟨?_, ?_, ?_⟩ <;> (rintro rfl; cases inside)

/-- No delimiter goes on with a numeral. -/
theorem not_numeral_of_isDelimiter {c : Char} (delimiter : isDelimiter c = true) :
    c.isDigit = false ∧ c ≠ '.' ∧ c ≠ 'e' ∧ c ≠ 'E' := by
  simp only [isDelimiter, isSeparator, Bool.or_eq_true, beq_iff_eq] at delimiter
  rcases delimiter with ((((((rfl | rfl) | rfl) | rfl) | rfl) | rfl) | rfl) <;> decide

/-- Separators in front of a token are skipped, and nothing else is. -/
theorem skipBlanks_append {blanks : List Char} (blank : Separators blanks) {c : Char}
    {rest : List Char} (token : isSeparator c = false) :
    skipBlanks (blanks ++ c :: rest) = c :: rest := by
  rw [skipBlanks, List.dropWhile_append_of_pos blank, List.dropWhile_cons_of_neg (by simp [token])]

/-- What stands behind separators and a delimiter, or is separated, is delimited. -/
theorem delimited_append {blanks rest : List Char} (blank : Separators blanks)
    (delimited : Delimited rest) : Delimited (blanks ++ rest) := by
  cases blanks with
  | nil => exact delimited
  | cons c blanks => exact delimited_cons (isDelimiter_of_isSeparator (blank c (by simp)))

/-- A layout puts nothing but separators between the tokens of a text, and a colon between
a key and its value. -/
structure Layout.Lawful (layout : Layout) : Prop where
  gap : ∀ depth, Separators (layout.gap depth)
  colon : ∃ before behind, Separators before ∧ Separators behind ∧
    layout.colon = before ++ ':' :: behind

theorem Layout.lawful_indented : Layout.indented.Lawful := by
  constructor
  · intro depth c member
    rcases List.mem_cons.mp member with rfl | spaces
    · rfl
    · rw [List.eq_of_mem_replicate spaces]
      rfl
  · exact ⟨[], [' '], separators_nil, by simp [Separators, isSeparator], rfl⟩

theorem Layout.lawful_compact : Layout.compact.Lawful where
  gap _ := separators_nil
  colon := ⟨[], [], separators_nil, separators_nil, rfl⟩

/-! ## Strings -/

theorem Escape.read_controlDigits {code : Nat} (small : code < 0x20) (rest : List Char) :
    Escape.read ('u' :: '0' :: '0' :: (controlDigits code ++ rest)) =
      .ok (Char.ofNat code, rest) := by
  have digits : ∀ code < 0x20,
      hexDigit? (if code < 16 then '0' else '1') = some (code / 16) ∧
        hexDigit? (Nat.digitChar (code % 16)) = some (code % 16) := by decide
  obtain ⟨high, low⟩ := digits code small
  have zero : hexDigit? '0' = some 0 := by decide
  have whole : code / 16 * 16 + code % 16 = code := by omega
  have plain : code < 0xD800 := by omega
  simp [Escape.read, letter?, unicode, fourHex, controlDigits, zero, high, low, whole, plain]

section

variable {reversed rest behind : List Char}

theorem readString_quote :
    readString reversed ('"' :: rest) = .ok (String.ofList reversed.reverse, rest) := by
  rw [readString]
  simp

theorem readString_escape {named : Char} (read : Escape.read rest = .ok (named, behind)) :
    readString reversed ('\\' :: rest) = readString (named :: reversed) behind := by
  rw [readString]
  simp only [show ('\\' == '"') = false from rfl, Bool.false_eq_true, if_false, beq_self_eq_true,
    if_true]
  split
  · next failed => rw [read] at failed; cases failed
  · next other further done =>
      rw [read] at done
      cases done
      rfl

theorem readString_plain {c : Char} (noQuote : c ≠ '"') (noBackslash : c ≠ '\\')
    (noControl : ¬ c.toNat < 0x20) :
    readString reversed (c :: rest) = readString (c :: reversed) rest := by
  rw [readString]
  simp [noQuote, noBackslash, noControl]

/-- Whatever the printer makes of a character, the reader makes the character of it. -/
theorem readString_escaped (c : Char) :
    readString reversed (escaped c ++ rest) = readString (c :: reversed) rest := by
  unfold escaped
  split
  · next quote => rw [eq_of_beq quote]; exact readString_escape rfl
  split
  · next backslash => rw [eq_of_beq backslash]; exact readString_escape rfl
  split
  · next same => rw [eq_of_beq same]; exact readString_escape rfl
  split
  · next same => rw [eq_of_beq same]; exact readString_escape rfl
  split
  · next same => rw [eq_of_beq same]; exact readString_escape rfl
  split
  · next same => rw [eq_of_beq same]; exact readString_escape rfl
  split
  · next same => rw [eq_of_beq same]; exact readString_escape rfl
  split
  · next control =>
      have read := Escape.read_controlDigits control rest
      rw [Char.ofNat_toNat] at read
      exact readString_escape read
  · next quote backslash _ _ _ _ _ control =>
      exact readString_plain (by simpa using quote) (by simpa using backslash) control

end

theorem readString_flatMap_escaped (text reversed rest : List Char) :
    readString reversed (text.flatMap escaped ++ '"' :: rest) =
      .ok (String.ofList (reversed.reverse ++ text), rest) := by
  induction text generalizing reversed with
  | nil => simp [readString_quote]
  | cons c text inductionHypothesis =>
      rw [List.flatMap_cons, List.append_assoc, readString_escaped, inductionHypothesis]
      simp

/-- A printed string is read back behind its opening quote. -/
theorem readString_stringChars (text : String) (rest : List Char) :
    readString [] ((stringChars text).tail ++ rest) = .ok (text, rest) := by
  have read := readString_flatMap_escaped text.toList [] rest
  simpa [stringChars] using read

/-! ## Numerals -/

namespace Numeral

variable {atEnd : Cause} {text left rest : List Char}

theorem splitDigits_append (stops : (splitDigits text).2 = [] → Delimited rest) :
    splitDigits (text ++ rest) = ((splitDigits text).1, (splitDigits text).2 ++ rest) := by
  induction text with
  | nil =>
      cases rest with
      | nil => rfl
      | cons c rest =>
          have notDigit := (not_numeral_of_isDelimiter (stops rfl c rfl)).1
          simp [splitDigits, notDigit]
  | cons c text inductionHypothesis =>
      by_cases digit : c.isDigit = true
      · simp only [splitDigits, List.takeWhile_cons_of_pos digit,
          List.dropWhile_cons_of_pos digit, List.cons_append, Prod.mk.injEq] at *
        obtain ⟨taken, dropped⟩ := inductionHypothesis stops
        exact ⟨congrArg (c :: ·) taken, dropped⟩
      · simp [splitDigits, digit]

theorem scanDigits_append {digits : List Char}
    (scanned : scanDigits atEnd text = .ok (digits, left))
    (stops : left = [] → Delimited rest) :
    scanDigits atEnd (text ++ rest) = .ok (digits, left ++ rest) := by
  cases text with
  | nil => cases scanned
  | cons c text =>
      simp only [scanDigits, List.cons_append] at scanned ⊢
      split at scanned
      · next digit =>
          cases scanned
          have apart : splitDigits (c :: text ++ rest) = _ := splitDigits_append stops
          rw [if_pos digit, ← List.cons_append]
          exact congrArg Except.ok apart
      · cases scanned

theorem scanWhole_append {digits : List Char}
    (scanned : scanWhole atEnd text = .ok (digits, left))
    (stops : left = [] → Delimited rest) :
    scanWhole atEnd (text ++ rest) = .ok (digits, left ++ rest) := by
  unfold scanWhole at scanned
  split at scanned
  · next c behind =>
      split at scanned
      · cases scanned
      · next notDigit =>
          cases scanned
          simp [scanWhole, notDigit]
  · next noPair =>
      have further := scanDigits_append scanned stops
      unfold scanWhole
      split
      · next c behind same =>
          cases text with
          | nil => cases scanned
          | cons d text =>
              cases text with
              | nil =>
                  rw [List.cons_append, List.nil_append, List.cons.injEq] at same
                  obtain ⟨rfl, rfl⟩ := same
                  cases scanned
                  have notDigit := (not_numeral_of_isDelimiter (stops rfl c rfl)).1
                  simp [notDigit]
              | cons e text =>
                  rw [List.cons_append, List.cons_append, List.cons.injEq, List.cons.injEq] at same
                  obtain ⟨rfl, rfl, rfl⟩ := same
                  exact absurd rfl (noPair e text)
      · exact further

theorem scanFraction_append {digits : Option (List Char)}
    (scanned : scanFraction atEnd text = .ok (digits, left))
    (stops : left = [] → Delimited rest) :
    scanFraction atEnd (text ++ rest) = .ok (digits, left ++ rest) := by
  unfold scanFraction at scanned
  split at scanned
  · next behind =>
      split at scanned
      · next inner further ran =>
          cases scanned
          simp [scanFraction, scanDigits_append ran stops]
      · cases scanned
  · next noPoint =>
      cases scanned
      unfold scanFraction
      split
      · next behind same =>
          cases text with
          | nil =>
              rw [List.nil_append] at same
              subst same
              exact absurd rfl (not_numeral_of_isDelimiter (stops rfl '.' rfl)).2.1
          | cons c text =>
              rw [List.cons_append, List.cons.injEq] at same
              exact absurd (congrArg (· :: text) same.1) (noPoint text)
      · rfl

theorem splitSign_append (text rest : List Char) (filled : text ≠ []) :
    MotionSteps.Number.splitSign (text ++ rest) =
      ((MotionSteps.Number.splitSign text).1, (MotionSteps.Number.splitSign text).2 ++ rest) := by
  cases text with
  | nil => exact absurd rfl filled
  | cons c text =>
      rw [List.cons_append]
      unfold MotionSteps.Number.splitSign
      split <;> simp_all

theorem scanExponent_append {exponent : Option (Bool × List Char)}
    (scanned : scanExponent atEnd text = .ok (exponent, left))
    (stops : left = [] → Delimited rest) :
    scanExponent atEnd (text ++ rest) = .ok (exponent, left ++ rest) := by
  cases text with
  | nil =>
      cases scanned
      cases rest with
      | nil => rfl
      | cons c rest =>
          obtain ⟨-, -, noSmall, noCapital⟩ := not_numeral_of_isDelimiter (stops rfl c rfl)
          simp [scanExponent, noSmall, noCapital]
  | cons mark text =>
      simp only [scanExponent, List.cons_append] at scanned ⊢
      split at scanned
      · next marked =>
          rw [if_pos marked]
          have filled : text ≠ [] := by
            rintro rfl
            cases scanned
          rw [splitSign_append text rest filled]
          split at scanned
          · next digits behind ran =>
              cases scanned
              simp [scanDigits_append ran stops]
          · cases scanned
      · next unmarked =>
          cases scanned
          rw [if_neg unmarked, List.cons_append]

theorem splitMinus_append (text rest : List Char) (filled : text ≠ []) :
    splitMinus (text ++ rest) = ((splitMinus text).1, (splitMinus text).2 ++ rest) := by
  cases text with
  | nil => exact absurd rfl filled
  | cons c text =>
      rw [List.cons_append]
      unfold splitMinus
      split <;> simp_all

/-- A numeral is taken off the front of a longer text as well, unless what follows could go
on with it. -/
theorem scan_append {numeral : Numeral} (scanned : scan atEnd text = .ok (numeral, left))
    (stops : left = [] → Delimited rest) :
    scan atEnd (text ++ rest) = .ok (numeral, left ++ rest) := by
  have filled : text ≠ [] := by
    rintro rfl
    cases scanned
  unfold scan at scanned ⊢
  rw [splitMinus_append text rest filled]
  simp only [bind, Except.bind, pure, Except.pure] at scanned ⊢
  split at scanned
  · cases scanned
  · next whole ranWhole =>
      obtain ⟨digits, behindWhole⟩ := whole
      split at scanned
      · cases scanned
      · next fraction ranFraction =>
          obtain ⟨fraction, behindFraction⟩ := fraction
          split at scanned
          · cases scanned
          · next exponent ranExponent =>
              obtain ⟨exponent, behindExponent⟩ := exponent
              cases scanned
              -- A stage that leaves nothing leaves nothing for the ones behind it.
              have second := scanFraction_le ranFraction
              have third := scanExponent_le ranExponent
              have stopsFraction : behindFraction = [] → Delimited rest := by
                rintro rfl
                exact stops (List.eq_nil_of_length_eq_zero (Nat.le_zero.mp third))
              have stopsWhole : behindWhole = [] → Delimited rest := by
                rintro rfl
                exact stopsFraction (List.eq_nil_of_length_eq_zero (Nat.le_zero.mp second))
              simp only [scanWhole_append ranWhole stopsWhole,
                scanFraction_append ranFraction stopsFraction,
                scanExponent_append ranExponent stops]

theorem read_append {number : Number} (ran : read text = .ok (number, left))
    (stops : left = [] → Delimited rest) : read (text ++ rest) = .ok (number, left ++ rest) := by
  unfold read at ran ⊢
  split at ran
  · cases ran
  · next numeral behind scanned =>
      split at ran
      · next found evaluated =>
          cases ran
          simp [scan_append scanned stops, evaluated]
      · cases ran

end Numeral

namespace Number

/-- The number that the text of a number is read as, if the whole text is one numeral. -/
def reread? (number : Number) : Option Number :=
  match Numeral.read number.text.toList with
  | .ok (found, []) => some found
  | _ => none

theorem read_text {number found : Number} (same : number.reread? = some found) {rest : List Char}
    (delimited : Delimited rest) :
    Numeral.read (number.text.toList ++ rest) = .ok (found, rest) := by
  unfold reread? at same
  split at same
  · next whole ran =>
      cases same
      exact Numeral.read_append ran fun _ => delimited
  · cases same

/-- A text that begins like a numeral. -/
def Begins (text : List Char) : Prop :=
  ∃ c rest, text = c :: rest ∧ (c = '-' ∨ c.isDigit = true)

theorem begins_toDigits (value : Nat) (rest : List Char) :
    Begins (Nat.toDigits 10 value ++ rest) := by
  cases digits : Nat.toDigits 10 value with
  | nil => exact absurd digits Nat.toDigits_ne_nil
  | cons digit more =>
      have isDigit : digit.isDigit = true :=
        Nat.isDigit_of_mem_toDigits (by decide) (Nat.le_refl _) (by rw [digits]; simp)
      exact ⟨digit, more ++ rest, rfl, .inr isDigit⟩

theorem begins_decimalChars (value : Nat) (leading : Int) :
    Begins (MotionSteps.Number.decimalChars (Nat.toDigits 10 value) leading) := by
  obtain ⟨digit, digits, same, isDigit⟩ := begins_toDigits value []
  rw [List.append_nil] at same
  rw [same]
  unfold MotionSteps.Number.decimalChars
  split
  · split
    · exact ⟨'0', _, rfl, .inr rfl⟩
    · exact ⟨digit, _, rfl, isDigit⟩
  · exact ⟨digit, _, rfl, isDigit⟩

/-- A number that JSON has a text for. -/
def IsFinite : Number → Prop
  | .integer _ => True
  | .float value => value.isFinite = true

theorem begins_text {number : Number} (finite : number.IsFinite) :
    Begins number.text.toList := by
  cases number with
  | integer value =>
      simp only [text, MotionSteps.Number.integerText, MotionSteps.Number.naturalText]
      split
      · exact ⟨'-', Nat.toDigits 10 value.natAbs, by simp, .inl rfl⟩
      · simpa using begins_toDigits value.natAbs []
  | float value =>
      have isFinite : value.isFinite = true := finite
      rw [text, if_pos isFinite, MotionSteps.Number.text, String.toList_ofList]
      simp only
      split
      · exact ⟨'-', _, rfl, .inl rfl⟩
      · split
        · exact ⟨'0', _, rfl, .inr rfl⟩
        · exact begins_decimalChars _ _

theorem text_of_not_isFinite {number : Number} (infinite : ¬ number.IsFinite) :
    number.text = "null" := by
  cases number with
  | integer value => exact absurd trivial infinite
  | float value =>
      have notFinite : ¬ value.isFinite = true := infinite
      rw [text, if_neg notFinite]

/-- What is read as a number is finite: null is no numeral. -/
theorem isFinite_of_reread? {number found : Number} (same : number.reread? = some found) :
    number.IsFinite := by
  refine Classical.byContradiction fun infinite => ?_
  rw [reread?, text_of_not_isFinite infinite] at same
  cases same

end Number

/-! ## Heads -/

namespace Head

variable {blanks rest : List Char}

theorem read_append {c : Char} (blank : Separators blanks) (token : isSeparator c = false) :
    read (blanks ++ c :: rest) = ofChar c rest := by
  rw [read, skipBlanks_append blank token]

theorem read_string (blank : Separators blanks) (text : String) (rest : List Char) :
    read (blanks ++ (stringChars text ++ rest)) = .ok (.string text, rest) := by
  have ran := readString_stringChars text rest
  rw [stringChars, List.cons_append, read_append blank rfl]
  rw [stringChars, List.tail_cons, List.append_assoc, List.singleton_append] at ran
  simp [ofChar, ran, Except.map]

theorem ne_of_numeral {c other : Char} (numeric : c = '-' ∨ c.isDigit = true)
    (noMinus : other ≠ '-') (noDigit : other.isDigit = false) : c ≠ other := by
  rintro rfl
  rcases numeric with minus | digit
  · exact noMinus minus
  · rw [noDigit] at digit
    cases digit

/-- A character that begins a numeral begins nothing else. -/
theorem ofChar_numeral {c : Char} (numeric : c = '-' ∨ c.isDigit = true) (rest : List Char) :
    ofChar c rest =
      (Numeral.read (c :: rest)).map fun (found, behind) => (.number found, behind) := by
  have away : ∀ other : Char, other ≠ '-' → other.isDigit = false → c ≠ other :=
    fun _ => ne_of_numeral numeric
  have starts : (c == '-' || c.isDigit) = true := by simpa using numeric
  simp [ofChar, away '"' (by decide) (by decide), away '[' (by decide) (by decide),
    away '\x7b' (by decide) (by decide), away 'n' (by decide) (by decide),
    away 't' (by decide) (by decide), away 'f' (by decide) (by decide), starts]

theorem not_isDelimiter_of_numeral {c : Char} (numeric : c = '-' ∨ c.isDigit = true) :
    isDelimiter c = false := by
  rcases numeric with rfl | digit
  · rfl
  · cases delimiter : isDelimiter c with
    | false => rfl
    | true =>
        rw [(not_numeral_of_isDelimiter delimiter).1] at digit
        cases digit

theorem read_number {number found : Number} (blank : Separators blanks)
    (same : number.reread? = some found) (delimited : Delimited rest) :
    read (blanks ++ (number.text.toList ++ rest)) = .ok (.number found, rest) := by
  obtain ⟨c, more, starts, numeric⟩ := Number.begins_text (Number.isFinite_of_reread? same)
  have ran := number.read_text same delimited
  have token := isSeparator_of_not_isDelimiter (not_isDelimiter_of_numeral numeric)
  rw [starts, List.cons_append] at ran ⊢
  rw [read_append blank token, ofChar_numeral numeric, ran]
  rfl

end Head

end MotionSteps.Json
