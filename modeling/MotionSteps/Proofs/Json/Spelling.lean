import MotionSteps.Json.Reader.Container
import MotionSteps.Proofs.Json.Grammar

/-!
# Tokens are read as they are spelled

A string is read as what it spells, whichever of its characters are named by escapes. A numeral
is read as a whole in front of whatever may follow it in a text of tokens.
-/

namespace MotionSteps.Json

/-! ## Numerals -/

namespace Numeral

variable (atEnd : Cause) {rest : List Char}

theorem scanDigits_append_of_areDigits {digits : List Char} (areDigits : AreDigits digits)
    (stops : ∀ c ∈ rest.head?, c.isDigit = false) :
    scanDigits atEnd (digits ++ rest) = .ok (digits, rest) := by
  have stopped : splitDigits rest = ([], rest) := by
    cases rest with
    | nil => rfl
    | cons c rest => simp [splitDigits, stops c rfl]
  have split : splitDigits (digits ++ rest) = (digits, rest) := by
    obtain ⟨taken, dropped⟩ := Prod.mk.inj stopped
    rw [splitDigits, List.takeWhile_append_of_pos areDigits.numeric,
      List.dropWhile_append_of_pos areDigits.numeric, taken, dropped, List.append_nil]
  obtain ⟨digit, others, rfl⟩ := List.exists_cons_of_ne_nil areDigits.filled
  rw [List.cons_append] at split ⊢
  simp only [scanDigits, areDigits.numeric digit List.mem_cons_self, if_true, split]

theorem scanWhole_append_of_isWhole {whole : List Char} (isWhole : IsWhole whole)
    (stops : ∀ c ∈ rest.head?, c.isDigit = false) :
    scanWhole atEnd (whole ++ rest) = .ok (whole, rest) := by
  have scanned := scanDigits_append_of_areDigits atEnd isWhole.toAreDigits stops
  unfold scanWhole
  split
  · next c behind zero =>
      obtain ⟨digit, others, rfl⟩ := List.exists_cons_of_ne_nil isWhole.filled
      obtain rfl := (List.cons.inj zero).1
      obtain rfl := (List.cons.inj (isWhole.plain rfl)).2
      obtain rfl := (List.cons.inj zero).2
      rw [stops c rfl]
      rfl
  · exact scanned

theorem scanFraction_append_of_isFraction {fraction : List Char} (isFraction : IsFraction fraction)
    (stops : ∀ c ∈ rest.head?, c.isDigit = false ∧ c ≠ '.') :
    ∃ digits, scanFraction atEnd (fraction ++ rest) = .ok (digits, rest) := by
  cases isFraction with
  | none =>
      refine ⟨none, ?_⟩
      rw [List.nil_append]
      unfold scanFraction
      split
      · exact absurd rfl (stops '.' rfl).2
      · rfl
  | @some digits areDigits =>
      refine ⟨digits, ?_⟩
      rw [List.cons_append, scanFraction,
        scanDigits_append_of_areDigits atEnd areDigits fun c first => (stops c first).1]

/-- Digits have no sign. -/
theorem exists_splitSign {sign digits : List Char} (signed : sign ∈ [[], ['+'], ['-']])
    (areDigits : AreDigits digits) :
    ∃ negative, MotionSteps.Number.splitSign (sign ++ digits) = (negative, digits) := by
  simp only [List.mem_cons, List.not_mem_nil, or_false] at signed
  rcases signed with rfl | rfl | rfl
  · refine ⟨false, ?_⟩
    rw [List.nil_append]
    unfold MotionSteps.Number.splitSign
    split
    · exact absurd (areDigits.numeric '-' List.mem_cons_self) (by decide)
    · exact absurd (areDigits.numeric '+' List.mem_cons_self) (by decide)
    · rfl
  · exact ⟨false, rfl⟩
  · exact ⟨true, rfl⟩

theorem exists_splitMinus {sign whole : List Char} (signed : sign ∈ [[], ['-']])
    (isWhole : IsWhole whole) (rest : List Char) :
    ∃ negative, splitMinus (sign ++ (whole ++ rest)) = (negative, whole ++ rest) := by
  simp only [List.mem_cons, List.not_mem_nil, or_false] at signed
  rcases signed with rfl | rfl
  · refine ⟨false, ?_⟩
    obtain ⟨digit, others, rfl⟩ := List.exists_cons_of_ne_nil isWhole.filled
    rw [List.nil_append, List.cons_append]
    unfold splitMinus
    split
    · next minus =>
        obtain ⟨rfl, -⟩ := List.cons.inj minus
        exact absurd (isWhole.numeric '-' List.mem_cons_self) (by decide)
    · rfl
  · exact ⟨true, rfl⟩

theorem exists_scanExponent {exponent : List Char} (isExponent : IsExponent exponent) :
    ∃ digits, scanExponent atEnd exponent = .ok (digits, []) := by
  cases isExponent with
  | none => exact ⟨none, rfl⟩
  | @some mark sign digits marked signed areDigits =>
      have scanned : scanDigits atEnd (digits ++ []) = .ok (digits, []) :=
        scanDigits_append_of_areDigits atEnd areDigits nofun
      obtain ⟨negative, split⟩ := exists_splitSign signed areDigits
      rw [List.append_nil] at scanned
      refine ⟨some (negative, digits), ?_⟩
      have marks : (mark == 'e' || mark == 'E') = true := by simpa using marked
      simp only [scanExponent, marks, if_true, split, scanned]

/-- An exponent goes on with no digits and has no point. -/
theorem IsExponent.stops {exponent : List Char} (isExponent : IsExponent exponent) :
    ∀ c ∈ exponent.head?, c.isDigit = false ∧ c ≠ '.' := by
  cases isExponent with
  | none => nofun
  | some marked _ _ => rcases marked with rfl | rfl <;> (rintro c ⟨⟩; decide)

/-- What follows the whole part goes on with no digits. -/
theorem IsFraction.stops {fraction exponent : List Char} (isFraction : IsFraction fraction)
    (isExponent : IsExponent exponent) : ∀ c ∈ (fraction ++ exponent).head?, c.isDigit = false := by
  cases isFraction with
  | none => exact fun c first => (IsExponent.stops isExponent c first).1
  | some _ => rintro c ⟨⟩; decide

/-- A numeral is scanned as a whole. -/
theorem exists_scan {numeral : Token} (isNumeral : IsNumeral numeral) :
    ∃ parts, scan atEnd numeral = .ok (parts, []) := by
  cases isNumeral with
  | @parts sign whole fraction exponent signed isWhole isFraction isExponent =>
  obtain ⟨negative, minus⟩ := exists_splitMinus signed isWhole (fraction ++ exponent)
  have scanned := scanWhole_append_of_isWhole atEnd isWhole
    (IsFraction.stops isFraction isExponent)
  obtain ⟨digits, scannedFraction⟩ := scanFraction_append_of_isFraction atEnd
    isFraction (IsExponent.stops isExponent)
  obtain ⟨power, scannedExponent⟩ := exists_scanExponent atEnd isExponent
  refine ⟨⟨negative, whole, digits, power⟩, ?_⟩
  simp only [scan, minus, bind, Except.bind, scanned, scannedFraction, scannedExponent, pure,
    Except.pure]

end Numeral

/-! ## Strings -/

namespace Escape

theorem fourHex_append {digits : List Char} {code : Nat} (hex : FourHex digits code)
    (rest : List Char) : fourHex (digits ++ rest) = .ok (code, rest) := by
  cases hex with
  | digits isFirst isSecond isThird isFourth =>
      simp [fourHex, isFirst, isSecond, isThird, isFourth]

theorem read_letter {mark named : Char} (letter : letter? mark = some named) (rest : List Char) :
    read (mark :: rest) = .ok (named, rest) := by
  simp only [read, letter]

theorem read_unicode (rest : List Char) : read ('u' :: rest) = unicode rest := rfl

theorem unicode_append {digits : List Char} {code : Nat} (hex : FourHex digits code)
    (whole : code < 0xD800 ∨ 0xE000 ≤ code) (rest : List Char) :
    unicode (digits ++ rest) = .ok (Char.ofNat code, rest) := by
  simp only [unicode, fourHex_append hex, if_pos whole]

theorem unicode_high {digits : List Char} {code : Nat} (hex : FourHex digits code)
    (isHigh : 0xD800 ≤ code ∧ code < 0xDC00) (rest : List Char) :
    unicode (digits ++ rest) = secondHalf code rest := by
  have half : ¬(code < 0xD800 ∨ 0xE000 ≤ code) := by omega
  have first : ¬0xDC00 ≤ code := by omega
  simp only [unicode, fourHex_append hex, if_neg half, if_neg first]

theorem unicode_pair {high low : List Char} {first second : Nat} (hexHigh : FourHex high first)
    (hexLow : FourHex low second) (isHigh : 0xD800 ≤ first ∧ first < 0xDC00)
    (isLow : 0xDC00 ≤ second ∧ second < 0xE000) (rest : List Char) :
    unicode (high ++ '\\' :: 'u' :: (low ++ rest)) =
      .ok (Char.ofNat (0x10000 + (first - 0xD800) * 0x400 + (second - 0xDC00)), rest) := by
  rw [unicode_high hexHigh isHigh]
  simp only [secondHalf, fourHex_append hexLow, if_pos isLow]

end Escape

/-- A string is read as what it spells. -/
theorem readString_of_spells {inside text : List Char} (spells : Spells inside text)
    (reversed rest : List Char) :
    readString reversed (inside ++ '"' :: rest) =
      .ok (String.ofList (reversed.reverse ++ text), rest) := by
  induction spells generalizing reversed with
  | nil => rw [List.nil_append, readString_quote, List.append_nil]
  | plain plain _ inductionHypothesis =>
      rw [List.cons_append,
        readString_plain plain.noQuote plain.noBackslash plain.noControl, inductionHypothesis]
      simp
  | letter letter _ inductionHypothesis =>
      rw [List.cons_append, List.cons_append, readString_escape (Escape.read_letter letter _),
        inductionHypothesis]
      simp
  | unicode hex whole _ inductionHypothesis =>
      have read := Escape.unicode_append hex whole
      simp only [List.cons_append, List.append_assoc]
      rw [readString_escape ((Escape.read_unicode _).trans (read _)), inductionHypothesis]
      simp
  | pair hexHigh hexLow isHigh isLow _ inductionHypothesis =>
      have read := Escape.unicode_pair hexHigh hexLow isHigh isLow
      simp only [List.cons_append, List.append_assoc]
      rw [readString_escape ((Escape.read_unicode _).trans (read _)), inductionHypothesis]
      simp

/-- A string spells one text. -/
theorem Spells.unique {inside text other : List Char} (spells : Spells inside text)
    (others : Spells inside other) : text = other := by
  have same := (readString_of_spells spells [] []).symm.trans (readString_of_spells others [] [])
  exact String.ofList_injective (Prod.mk.inj (Except.ok.inj same)).1

/-! ## Heads -/

theorem IsNumeral.begins {numeral : Token} (isNumeral : IsNumeral numeral) :
    Number.Begins numeral := by
  cases isNumeral with
  | @parts sign whole fraction exponent signed isWhole _ _ =>
      simp only [List.mem_cons, List.not_mem_nil, or_false] at signed
      obtain ⟨digit, others, rfl⟩ := List.exists_cons_of_ne_nil isWhole.filled
      rcases signed with rfl | rfl
      · exact ⟨digit, _, rfl, .inr (isWhole.numeric digit List.mem_cons_self)⟩
      · exact ⟨'-', _, rfl, .inl rfl⟩

/-- No value begins with a delimiter. -/
theorem IsValue.begins {value : List Token} (isValue : IsValue value) : Begins value := by
  cases isValue with
  | atom isAtom =>
      cases isAtom with
      | numeral isNumeral =>
          obtain ⟨c, tail, rfl, numeric⟩ := isNumeral.begins
          exact ⟨c, tail, [], rfl, Head.not_isDelimiter_of_numeral numeric⟩
      | _ => exact ⟨_, _, _, rfl, rfl⟩
  | array _ => exact ⟨_, _, _, rfl, rfl⟩
  | object _ _ => exact begins_objectTokens _

namespace Head

variable {text : List Char} {more : List Token}

theorem read_of_skipBlanks {c : Char} {rest : List Char} (seen : skipBlanks text = c :: rest) :
    read text = ofChar c rest := by
  rw [read, seen]

/-- A token that is a head whatever follows it is read as that head. -/
theorem exists_read_token {c : Char} {tail : List Char} {head : Head}
    (visible : isSeparator c = false) (begins : ∀ rest, ofChar c (tail ++ rest) = .ok (head, rest))
    (spaced : Spaced ((c :: tail) :: more) text) :
    ∃ rest, Spaced more rest ∧ read text = .ok (head, rest) := by
  obtain ⟨rest, others, seen⟩ := spaced.exists_skipBlanks visible
  exact ⟨rest, others, (read_of_skipBlanks seen).trans (begins rest)⟩

theorem exists_read_array (spaced : Spaced (['['] :: more) text) :
    ∃ rest, Spaced more rest ∧ read text = .ok (.array, rest) :=
  exists_read_token rfl (fun _ => rfl) spaced

theorem exists_read_object (spaced : Spaced (['\x7b'] :: more) text) :
    ∃ rest, Spaced more rest ∧ read text = .ok (.object, rest) :=
  exists_read_token rfl (fun _ => rfl) spaced

theorem exists_read_null (spaced : Spaced (['n', 'u', 'l', 'l'] :: more) text) :
    ∃ rest, Spaced more rest ∧ read text = .ok (.null, rest) :=
  exists_read_token rfl (fun _ => rfl) spaced

theorem exists_read_string {inside : List Char} {meaning : String}
    (spells : Spells inside meaning.toList) (spaced : Spaced (stringToken inside :: more) text) :
    ∃ rest, Spaced more rest ∧ read text = .ok (.string meaning, rest) := by
  refine exists_read_token rfl (fun rest => ?_) spaced
  have ran := readString_of_spells spells [] rest
  rw [List.append_assoc, List.singleton_append]
  simp [ofChar, ran, Except.map]

/-- A numeral is read as a whole in front of whatever may follow it. -/
theorem exists_read_numeral {numeral : Token} {number : Number} (begins : Number.Begins numeral)
    (value : Numeral.read numeral = .ok (number, [])) (closes : Closes more)
    (spaced : Spaced (numeral :: more) text) :
    ∃ rest, Spaced more rest ∧ read text = .ok (.number number, rest) := by
  obtain ⟨c, tail, rfl, numeric⟩ := begins
  have inside := isSeparator_of_not_isDelimiter (not_isDelimiter_of_numeral numeric)
  obtain ⟨rest, others, seen⟩ := spaced.exists_skipBlanks inside
  have ran := Numeral.read_append value fun _ => others.delimited closes
  refine ⟨rest, others, ?_⟩
  rw [read_of_skipBlanks seen, ofChar_numeral numeric, ← List.cons_append, ran]
  rfl

end Head

/-! ## Turns -/

section

variable {text : List Char} {more : List Token}

/-- Another item is found in front of a row that is no end. -/
theorem Spaced.nextItem_another {first : Bool} (spaced : Spaced (leadTokens first ++ more) text)
    (begins : Begins more) :
    ∃ start, Spaced more start ∧ nextItem first text = .ok (.another start) := by
  cases first with
  | true =>
      obtain ⟨c, rest, inside, seen, start⟩ := spaced.exists_begins begins
      have open' := (not_closer_of_not_isDelimiter inside).2.1
      refine ⟨c :: rest, start, ?_⟩
      simp [nextItem, seen, open']
  | false =>
      obtain ⟨behind, others, seenComma⟩ := spaced.exists_skipBlanks rfl
      obtain ⟨c, rest, inside, seen, start⟩ := Spaced.exists_begins others begins
      have open' := (not_closer_of_not_isDelimiter inside).2.1
      refine ⟨c :: rest, start, ?_⟩
      simp [nextItem, seenComma, seen, open']

theorem Spaced.nextItem_finished (spaced : Spaced ([']'] :: more) text) (first : Bool) :
    ∃ rest, Spaced more rest ∧ nextItem first text = .ok (.finished rest) := by
  obtain ⟨rest, others, seen⟩ := spaced.exists_skipBlanks rfl
  refine ⟨rest, others, ?_⟩
  rw [nextItem, seen]
  rfl

/-- A key is read behind its quote, in whatever place it stands. -/
theorem Spaced.nextKey_eq {first : Bool} {inside : List Char}
    (spaced : Spaced (leadTokens first ++ (stringToken inside :: more)) text) :
    ∃ rest, Spaced more rest ∧ nextKey first text = readKey '"' (inside ++ '"' :: rest) := by
  cases first with
  | true =>
      obtain ⟨rest, others, seen⟩ := spaced.exists_skipBlanks rfl
      refine ⟨rest, others, ?_⟩
      rw [nextKey, seen, List.append_assoc]
      rfl
  | false =>
      obtain ⟨behind, key, seenComma⟩ := spaced.exists_skipBlanks rfl
      obtain ⟨rest, others, seen⟩ := key.exists_skipBlanks rfl
      refine ⟨rest, others, ?_⟩
      rw [List.append_assoc, List.singleton_append] at seen
      simp [nextKey, seenComma, seen]

theorem Spaced.nextKey_another {first : Bool} {inside : List Char} {key : String}
    (spaced : Spaced (leadTokens first ++ (stringToken inside :: more)) text)
    (spells : Spells inside key.toList) :
    ∃ rest, Spaced more rest ∧ nextKey first text = .ok (.another key rest) := by
  obtain ⟨rest, others, turn⟩ := spaced.nextKey_eq
  have ran := readString_of_spells spells [] rest
  refine ⟨rest, others, ?_⟩
  rw [turn, readKey]
  simp [ran]

theorem Spaced.nextKey_finished (spaced : Spaced (['\x7d'] :: more) text) (first : Bool) :
    ∃ rest, Spaced more rest ∧ nextKey first text = .ok (.finished rest) := by
  obtain ⟨rest, others, seen⟩ := spaced.exists_skipBlanks rfl
  refine ⟨rest, others, ?_⟩
  rw [nextKey, seen]
  rfl

theorem Spaced.readColon_eq (spaced : Spaced ([':'] :: more) text) :
    ∃ rest, Spaced more rest ∧ readColon text = .ok rest := by
  obtain ⟨rest, others, seen⟩ := spaced.exists_skipBlanks rfl
  refine ⟨rest, others, ?_⟩
  rw [readColon, seen]
  rfl

end

end MotionSteps.Json
