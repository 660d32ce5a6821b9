import MotionSteps.Proofs.Json.Takes

/-!
# Heads in every layout

What stands around a token has no part in what is read of it. A token that was read somewhere is
read in every layout, and as the same head. This turns the lemmas on spellings round: a string
that was read spells what it was read as, and a numeral that was read has its number by itself.
-/

namespace MotionSteps.Json

/-! ## Strings -/

namespace Escape

variable {text rest : List Char}

theorem exists_of_fourHex {code : Nat} (ran : fourHex text = .ok (code, rest)) :
    ∃ digits, text = digits ++ rest ∧ FourHex digits code := by
  unfold fourHex at ran
  split at ran
  · next a b c d tail =>
      split at ran
      · next first second third fourth =>
          cases ran
          exact ⟨[a, b, c, d], rfl, .digits first second third fourth⟩
      · cases ran
  · cases ran

/-- A second half that was read is the low half of a pair. -/
theorem exists_of_secondHalf {first : Nat} {named : Char}
    (ran : secondHalf first text = .ok (named, rest)) :
    ∃ low second, text = '\\' :: 'u' :: (low ++ rest) ∧ FourHex low second ∧
      (0xDC00 ≤ second ∧ second < 0xE000) ∧
        named = Char.ofNat (0x10000 + (first - 0xD800) * 0x400 + (second - 0xDC00)) := by
  unfold secondHalf at ran
  split at ran
  · cases ran
  · split at ran
    · cases ran
    · split at ran
      · cases ran
      · next hex =>
          split at ran
          · next isLow =>
              obtain ⟨rfl, rfl⟩ := Prod.mk.inj (Except.ok.inj ran)
              obtain ⟨low, rfl, spelled⟩ := exists_of_fourHex hex
              exact ⟨low, _, rfl, spelled, isLow, rfl⟩
          · cases ran
    · cases ran
  · cases ran

/-- The digits behind a mark name one character, or begin the name of one. -/
theorem exists_spells_of_unicode {named : Char} (ran : unicode text = .ok (named, rest)) :
    ∃ taken, text = taken ++ rest ∧ ∀ {inside meaning : List Char}, Spells inside meaning →
      Spells ('\\' :: 'u' :: (taken ++ inside)) (named :: meaning) := by
  unfold unicode at ran
  split at ran
  · cases ran
  · next code behind hex =>
      obtain ⟨digits, rfl, spelled⟩ := exists_of_fourHex hex
      split at ran
      · next whole =>
          obtain ⟨rfl, rfl⟩ := Prod.mk.inj (Except.ok.inj ran)
          exact ⟨digits, rfl, fun others => .unicode spelled whole others⟩
      · next half =>
          split at ran
          · cases ran
          · next notLow =>
              have isHigh : 0xD800 ≤ code ∧ code < 0xDC00 :=
                ⟨Nat.not_lt.mp fun below => half (.inl below), Nat.not_le.mp notLow⟩
              obtain ⟨low, second, rfl, spelledLow, isLow, same⟩ := exists_of_secondHalf ran
              refine ⟨digits ++ '\\' :: 'u' :: low, by simp, fun others => ?_⟩
              rw [same, List.append_assoc, List.cons_append, List.cons_append]
              exact .pair spelled spelledLow isHigh isLow others

/-- An escape that was read names its character in front of any other text. -/
theorem exists_spells_of_read {named : Char} (ran : read text = .ok (named, rest)) :
    ∃ taken, text = taken ++ rest ∧ ∀ {inside meaning : List Char}, Spells inside meaning →
      Spells ('\\' :: (taken ++ inside)) (named :: meaning) := by
  unfold read at ran
  split at ran
  · cases ran
  · next c tail =>
      split at ran
      · next letter =>
          cases ran
          exact ⟨[c], rfl, fun others => .letter letter others⟩
      · split at ran
        · next isUnicode =>
            obtain rfl := eq_of_beq isUnicode
            obtain ⟨digits, rfl, spells⟩ := exists_spells_of_unicode ran
            exact ⟨'u' :: digits, rfl, spells⟩
        · cases ran

end Escape

/-- What was read of a string stands in front of its quote and spells what it was read as. -/
theorem exists_spells_of_readString {reversed text rest : List Char} {found : String}
    (ran : readString reversed text = .ok (found, rest)) :
    ∃ inside meaning, text = inside ++ '"' :: rest ∧ Spells inside meaning ∧
      found = String.ofList (reversed.reverse ++ meaning) := by
  fun_induction readString reversed text with
  | case1 => cases ran
  | case2 reversed c tail quote =>
      cases ran
      obtain rfl := eq_of_beq quote
      exact ⟨[], [], rfl, .nil, by rw [List.append_nil]⟩
  | case3 => cases ran
  | case4 reversed c tail _ backslash named behind escape _ inductionHypothesis =>
      obtain rfl := eq_of_beq backslash
      obtain ⟨taken, rfl, named⟩ := Escape.exists_spells_of_read escape
      obtain ⟨inside, meaning, rfl, spells, found⟩ := inductionHypothesis ran
      exact ⟨'\\' :: (taken ++ inside), _, by simp, named spells, by simp [found]⟩
  | case5 => cases ran
  | case6 reversed c tail noQuote noBackslash noControl inductionHypothesis =>
      obtain ⟨inside, meaning, rfl, spells, found⟩ := inductionHypothesis ran
      have plain : IsPlain c := ⟨by simpa using noQuote, by simpa using noBackslash, noControl⟩
      exact ⟨c :: inside, c :: meaning, rfl, .plain plain spells, by simp [found]⟩

/-- The string that is printed of a text spells it. -/
theorem exists_spells_stringChars (text : String) :
    ∃ inside, stringChars text = stringToken inside ∧ Spells inside text.toList := by
  obtain ⟨inside, meaning, same, spells, found⟩ :=
    exists_spells_of_readString (readString_flatMap_escaped text.toList [] [])
  obtain rfl : text.toList = meaning := by simpa using String.ofList_injective found
  exact ⟨inside, congrArg (List.cons '"') same, spells⟩

/-- A string of the grammar that was read spells what it was read as. -/
theorem spells_of_readString {inside rest behind : List Char} {found : String}
    (isInside : IsInside inside)
    (ran : readString [] (inside ++ '"' :: rest) = .ok (found, behind)) :
    Spells inside found.toList ∧ behind = rest := by
  have passed := Skim.string_of_readString ran
  rw [Skim.string_append isInside] at passed
  obtain rfl := Except.ok.inj passed
  obtain ⟨taken, meaning, same, spells, rfl⟩ := exists_spells_of_readString ran
  obtain rfl := List.append_cancel_right same
  exact ⟨by simpa using spells, rfl⟩

/-- A key that was read is what its token spells, and the reader stands right behind it. -/
theorem Spaced.spells_of_nextKey {first : Bool} {inside : List Char} {more : List Token}
    {text behind : List Char} {key : String} (isInside : IsInside inside)
    (spaced : Spaced (leadTokens first ++ (stringToken inside :: more)) text)
    (another : nextKey first text = .ok (.another key behind)) :
    Spells inside key.toList ∧ Spaced more behind := by
  obtain ⟨rest, others, turn⟩ := spaced.nextKey_eq
  have read := turn.symm.trans another
  unfold readKey at read
  rw [if_pos (beq_self_eq_true '"')] at read
  split at read
  · cases read
  · next ran =>
      cases read
      obtain ⟨spells, rfl⟩ := spells_of_readString isInside ran
      exact ⟨spells, others⟩

/-! ## Numerals -/

/-- A numeral that was read in front of other text has its number by itself. -/
theorem Numeral.read_of_append {numeral rest left : List Char} {number : Number}
    (isNumeral : IsNumeral numeral) (delimited : Delimited rest)
    (ran : read (numeral ++ rest) = .ok (number, left)) : read numeral = .ok (number, []) := by
  obtain ⟨parts, scanned⟩ := exists_scan .endInValue isNumeral
  unfold read at ran ⊢
  rw [scan_append scanned fun _ => delimited] at ran
  rw [scanned]
  split at ran
  · cases ran
  · next same =>
      cases same
      split at ran
      · cases ran
        rfl
      · cases ran

/-! ## Heads -/

namespace Head

/-- In every layout the head of a row that begins with a token is this one. -/
def IsOf (head : Head) (token : Token) : Prop :=
  ∀ ⦃more : List Token⦄ ⦃text : List Char⦄, Closes more → Spaced (token :: more) text →
    ∃ rest, Spaced more rest ∧ read text = .ok (head, rest)

/-- Whether a head is a value of its own. -/
def IsScalar : Head → Prop
  | .array | .object => False
  | _ => True

theorem isOf_of_ofChar {c : Char} {token : Token} {head : Head} (inside : isSeparator c = false)
    (known : ∀ rest, ofChar c (token ++ rest) = .ok (head, rest)) : head.IsOf (c :: token) := by
  intro more text _ spaced
  obtain ⟨rest, others, seen⟩ := spaced.exists_skipBlanks inside
  exact ⟨rest, others, (read_of_skipBlanks seen).trans (known rest)⟩

variable {token : Token} {more : List Token} {text rest : List Char} {found : Head}

theorem IsOf.eq_of_read {head : Head} (isOf : head.IsOf token) (closes : Closes more)
    (spaced : Spaced (token :: more) text) (ran : read text = .ok (found, rest)) :
    found = head := by
  obtain ⟨_, -, known⟩ := isOf closes spaced
  exact (Prod.mk.inj (Except.ok.inj (ran.symm.trans known))).1

/-- A head that was read of a value of one token is its head in every layout, and no bracket. -/
theorem isOf_of_read (isAtom : IsAtom token) (closes : Closes more)
    (spaced : Spaced (token :: more) text) (ran : read text = .ok (found, rest)) :
    found.IsOf token ∧ found.IsScalar := by
  suffices known : ∃ head : Head, head.IsOf token ∧ head.IsScalar by
    obtain ⟨head, isOf, scalar⟩ := known
    exact isOf.eq_of_read closes spaced ran ▸ ⟨isOf, scalar⟩
  cases isAtom with
  | null => exact ⟨.null, isOf_of_ofChar rfl fun _ => rfl, trivial⟩
  | true => exact ⟨.bool true, isOf_of_ofChar rfl fun _ => rfl, trivial⟩
  | false => exact ⟨.bool false, isOf_of_ofChar rfl fun _ => rfl, trivial⟩
  | numeral isNumeral =>
      obtain ⟨c, tail, rfl, numeric⟩ := isNumeral.begins
      have inside := isSeparator_of_not_isDelimiter (not_isDelimiter_of_numeral numeric)
      obtain ⟨behind, others, seen⟩ := spaced.exists_skipBlanks inside
      rw [read_of_skipBlanks seen, ofChar_numeral numeric] at ran
      obtain ⟨⟨number, left⟩, one, -⟩ := exists_of_map_eq_ok ran
      have value := Numeral.read_of_append isNumeral (others.delimited closes) one
      exact ⟨.number number, fun _ _ => exists_read_numeral isNumeral.begins value, trivial⟩
  | @string body isInside =>
      obtain ⟨behind, others, seen⟩ := spaced.exists_skipBlanks rfl
      rw [read_of_skipBlanks seen, List.append_assoc] at ran
      have mapped : (readString [] (body ++ '"' :: behind)).map
          (fun pair => (Head.string pair.1, pair.2)) = .ok (found, rest) := ran
      obtain ⟨⟨meaning, left⟩, one, -⟩ := exists_of_map_eq_ok mapped
      have spells := (spells_of_readString isInside one).1
      exact ⟨.string meaning, fun _ _ _ => exists_read_string spells, trivial⟩

end Head

end MotionSteps.Json
