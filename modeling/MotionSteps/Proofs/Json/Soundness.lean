import MotionSteps.Proofs.Json.Layouts

/-!
# Nothing but values is read

What the skimmer passes over is a value of the grammar, with separators between its tokens. Every
reader takes what the skimmer passes over, so a text that any of them reads is a JSON text.
`Demands` says which tokens must still come when the skimmer is in some state, and one step of the
skimmer goes from the tokens that its next state demands to those that its state demands.
-/

namespace MotionSteps.Json

/-! ## Rows of tokens in front of a text -/

/-- A text begins with a row of tokens, in some layout, and goes on with a rest. -/
def Covers (tokens : List Token) (text rest : List Char) : Prop :=
  ∀ ⦃more : List Token⦄, Spaced more rest → Spaced (tokens ++ more) text

theorem exists_separators_append (text : List Char) :
    ∃ blanks, Separators blanks ∧ text = blanks ++ skipBlanks text :=
  ⟨text.takeWhile isSeparator, fun _ => List.mem_takeWhile_imp,
    (List.takeWhile_append_dropWhile).symm⟩

theorem Separators.append {blanks others : List Char} (blank : Separators blanks)
    (blankToo : Separators others) : Separators (blanks ++ others) :=
  List.forall_mem_append.mpr ⟨blank, blankToo⟩

/-- More separators in front make another layout of the same row. -/
theorem Spaced.append_front {blanks : List Char} (blank : Separators blanks) {tokens : List Token}
    {text : List Char} (spaced : Spaced tokens text) : Spaced tokens (blanks ++ text) := by
  cases spaced with
  | nil blankToo => exact .nil (blank.append blankToo)
  | cons blankToo others =>
      rw [← List.append_assoc]
      exact .cons (blank.append blankToo) others

/-- More separators at the end make another layout of the same row. -/
theorem Spaced.append_behind {blanks : List Char} (blank : Separators blanks)
    {tokens : List Token} {text : List Char} (spaced : Spaced tokens text) :
    Spaced tokens (text ++ blanks) := by
  induction spaced with
  | nil blankToo => exact .nil (blankToo.append blank)
  | cons blankToo _ inductionHypothesis =>
      rw [List.append_assoc, List.append_assoc]
      exact .cons blankToo inductionHypothesis

namespace Covers

variable {tokens others : List Token} {text middle rest : List Char}

theorem nil (text : List Char) : Covers [] text text :=
  fun _ spaced => spaced

theorem append (covers : Covers tokens text middle) (further : Covers others middle rest) :
    Covers (tokens ++ others) text rest := by
  intro more spaced
  rw [List.append_assoc]
  exact covers (further spaced)

theorem of_skipBlanks (covers : Covers tokens (skipBlanks text) rest) :
    Covers tokens text rest := by
  intro more spaced
  obtain ⟨blanks, blank, same⟩ := exists_separators_append text
  rw [same]
  exact (covers spaced).append_front blank

theorem token {token : Token} (seen : skipBlanks text = token ++ rest) :
    Covers [token] text rest :=
  of_skipBlanks fun _ spaced => seen ▸ .cons separators_nil spaced

theorem cons {token : Token} (seen : skipBlanks text = token ++ middle)
    (covers : Covers tokens middle rest) : Covers (token :: tokens) text rest :=
  (Covers.token seen).append covers

end Covers

/-! ## Atoms -/

theorem eq_append_of_literal {expected text rest : List Char}
    (ran : literal expected text = .ok rest) : text = expected ++ rest := by
  fun_induction literal expected text with
  | case1 =>
      cases ran
      rfl
  | case2 => cases ran
  | case3 letter letters c behind same inductionHypothesis =>
      rw [eq_of_beq same, List.cons_append, ← inductionHypothesis ran]
  | case4 => cases ran

namespace Numeral

variable {atEnd : Cause} {text rest : List Char}

theorem areDigits_of_scanDigits {digits : List Char}
    (scanned : scanDigits atEnd text = .ok (digits, rest)) :
    AreDigits digits ∧ text = digits ++ rest := by
  unfold scanDigits at scanned
  split at scanned
  · cases scanned
  · next c tail =>
      split at scanned
      · next digit =>
          cases scanned
          refine ⟨⟨?_, fun _ => List.mem_takeWhile_imp⟩, (List.takeWhile_append_dropWhile).symm⟩
          rw [List.takeWhile_cons_of_pos digit]
          exact List.cons_ne_nil _ _
      · cases scanned

theorem isWhole_of_scanWhole {whole : List Char}
    (scanned : scanWhole atEnd text = .ok (whole, rest)) :
    IsWhole whole ∧ text = whole ++ rest := by
  unfold scanWhole at scanned
  split at scanned
  · split at scanned
    · cases scanned
    · cases scanned
      exact ⟨⟨⟨List.cons_ne_nil _ _, List.forall_mem_singleton.mpr rfl⟩, fun _ => rfl⟩, rfl⟩
  · next noPair =>
      obtain ⟨areDigits, rfl⟩ := areDigits_of_scanDigits scanned
      refine ⟨⟨areDigits, fun zero => ?_⟩, rfl⟩
      obtain ⟨digits, rfl⟩ := List.head?_eq_some_iff.mp zero
      cases digits with
      | nil => rfl
      | cons digit digits => exact absurd rfl (noPair digit (digits ++ rest))

theorem isFraction_of_scanFraction {digits : Option (List Char)}
    (scanned : scanFraction atEnd text = .ok (digits, rest)) :
    ∃ fraction, IsFraction fraction ∧ text = fraction ++ rest := by
  unfold scanFraction at scanned
  split at scanned
  · split at scanned
    · next ran =>
        cases scanned
        obtain ⟨areDigits, rfl⟩ := areDigits_of_scanDigits ran
        exact ⟨_, .some areDigits, rfl⟩
    · cases scanned
  · cases scanned
    exact ⟨[], .none, rfl⟩

theorem exists_sign (text : List Char) :
    ∃ sign ∈ [[], ['+'], ['-']], text = sign ++ (MotionSteps.Number.splitSign text).2 := by
  unfold MotionSteps.Number.splitSign
  split
  · exact ⟨['-'], by decide, rfl⟩
  · exact ⟨['+'], by decide, rfl⟩
  · exact ⟨[], by decide, rfl⟩

theorem isExponent_of_scanExponent {digits : Option (Bool × List Char)}
    (scanned : scanExponent atEnd text = .ok (digits, rest)) :
    ∃ exponent, IsExponent exponent ∧ text = exponent ++ rest := by
  unfold scanExponent at scanned
  split at scanned
  · next mark tail =>
      split at scanned
      · next marked =>
          simp only at scanned
          split at scanned
          · next ran =>
              cases scanned
              obtain ⟨sign, signed, same⟩ := exists_sign tail
              obtain ⟨areDigits, unsigned⟩ := areDigits_of_scanDigits ran
              rw [unsigned] at same
              refine ⟨_, .some (by simpa using marked) signed areDigits, ?_⟩
              rw [same, List.cons_append, List.append_assoc]
          · cases scanned
      · cases scanned
        exact ⟨[], .none, rfl⟩
  · cases scanned
    exact ⟨[], .none, rfl⟩

theorem exists_minus (text : List Char) :
    ∃ sign ∈ [[], ['-']], text = sign ++ (splitMinus text).2 := by
  unfold splitMinus
  split
  · exact ⟨['-'], by decide, rfl⟩
  · exact ⟨[], by decide, rfl⟩

/-- What is scanned is a numeral of the grammar. -/
theorem exists_isNumeral_of_scan {numeral : Numeral}
    (scanned : scan atEnd text = .ok (numeral, rest)) :
    ∃ token, IsNumeral token ∧ text = token ++ rest := by
  unfold scan at scanned
  simp only [bind, Except.bind, pure, Except.pure] at scanned
  split at scanned
  · cases scanned
  next ranWhole =>
  split at scanned
  · cases scanned
  next ranFraction =>
  split at scanned
  · cases scanned
  next ranExponent =>
  cases scanned
  obtain ⟨sign, signed, same⟩ := exists_minus text
  obtain ⟨isWhole, behindSign⟩ := isWhole_of_scanWhole ranWhole
  obtain ⟨fraction, isFraction, behindWhole⟩ := isFraction_of_scanFraction ranFraction
  obtain ⟨exponent, isExponent, behindFraction⟩ := isExponent_of_scanExponent ranExponent
  refine ⟨_, .parts signed isWhole isFraction isExponent, ?_⟩
  rw [same, behindSign, behindWhole, behindFraction]
  simp only [List.append_assoc]

end Numeral

namespace Skim

variable {text rest : List Char}

/-- An escape that is passed over may stand in a string. -/
theorem exists_isInside_of_escape (passed : escape text = .ok rest) :
    ∃ taken, text = taken ++ rest ∧ ∀ {inside}, IsInside inside →
      IsInside ('\\' :: (taken ++ inside)) := by
  unfold escape at passed
  split at passed
  · cases passed
  next c tail =>
  split at passed
  · next letter =>
      cases passed
      obtain ⟨named, letter⟩ := Option.isSome_iff_exists.mp letter
      exact ⟨[c], rfl, fun others => .letter letter others⟩
  split at passed
  · next isUnicode =>
      obtain rfl := eq_of_beq isUnicode
      split at passed
      · cases passed
      · next hex =>
          cases passed
          obtain ⟨digits, rfl, spelled⟩ := Escape.exists_of_fourHex hex
          exact ⟨'u' :: digits, rfl, fun others => .unicode spelled others⟩
  · cases passed

/-- A string that is passed over is one of the grammar. -/
theorem exists_isInside_of_string (passed : string text = .ok rest) :
    ∃ inside, IsInside inside ∧ text = inside ++ '"' :: rest := by
  fun_induction string text with
  | case1 => cases passed
  | case2 c tail quote =>
      cases passed
      exact ⟨[], .nil, by rw [eq_of_beq quote]; rfl⟩
  | case3 => cases passed
  | case4 c tail _ backslash behind named _ inductionHypothesis =>
      obtain ⟨taken, rfl, escaped⟩ := exists_isInside_of_escape named
      obtain ⟨inside, isInside, rfl⟩ := inductionHypothesis passed
      exact ⟨_, escaped isInside, by rw [eq_of_beq backslash]; simp⟩
  | case5 => cases passed
  | case6 c tail noQuote noBackslash noControl inductionHypothesis =>
      obtain ⟨inside, isInside, rfl⟩ := inductionHypothesis passed
      have plain : IsPlain c := ⟨by simpa using noQuote, by simpa using noBackslash, noControl⟩
      exact ⟨_, .plain plain isInside, rfl⟩

/-- The bracket that opens a container. -/
def Enclosure.opener : Enclosure → Char
  | .array => '['
  | .object => '\x7b'

/-- The letters that are passed over behind the first one of an atom complete it. -/
theorem exists_isAtom_of_literal {c : Char} {expected tail : List Char} {passed : Passed}
    (isAtom : IsAtom (c :: expected)) (ran : (literal expected tail).map Passed.scalar = .ok passed) :
    ∃ token rest, IsAtom token ∧ c :: tail = token ++ rest ∧ passed = .scalar rest := by
  obtain ⟨behind, letters, rfl⟩ := exists_of_map_eq_ok ran
  exact ⟨_, behind, isAtom, congrArg (List.cons c) (eq_append_of_literal letters), rfl⟩

/-- The head that is passed over is an atom or the bracket that opens a container. -/
theorem of_head {passed : Passed} (ran : head text = .ok passed) :
    (∃ token rest, IsAtom token ∧ skipBlanks text = token ++ rest ∧ passed = .scalar rest) ∨
      ∃ enclosure rest, skipBlanks text = [enclosure.opener] ++ rest ∧
        passed = .opened enclosure rest := by
  unfold head at ran
  split at ran
  · cases ran
  next c tail seen =>
  rw [seen]
  split at ran
  · next quote =>
      obtain ⟨behind, passedString, rfl⟩ := exists_of_map_eq_ok ran
      obtain ⟨inside, isInside, rfl⟩ := exists_isInside_of_string passedString
      obtain rfl := eq_of_beq quote
      exact .inl ⟨_, behind, .string isInside, by simp [stringToken], rfl⟩
  split at ran
  · next bracket =>
      cases ran
      obtain rfl := eq_of_beq bracket
      exact .inr ⟨.array, tail, rfl, rfl⟩
  split at ran
  · next brace =>
      cases ran
      obtain rfl := eq_of_beq brace
      exact .inr ⟨.object, tail, rfl, rfl⟩
  split at ran
  · next isNull =>
      obtain rfl := eq_of_beq isNull
      exact .inl (exists_isAtom_of_literal .null ran)
  split at ran
  · next isTrue =>
      obtain rfl := eq_of_beq isTrue
      exact .inl (exists_isAtom_of_literal .true ran)
  split at ran
  · next isFalse =>
      obtain rfl := eq_of_beq isFalse
      exact .inl (exists_isAtom_of_literal .false ran)
  split at ran
  · obtain ⟨⟨parts, behind⟩, scanned, rfl⟩ := exists_of_map_eq_ok ran
    obtain ⟨token, isNumeral, whole⟩ := Numeral.exists_isNumeral_of_scan scanned
    exact .inl ⟨token, behind, .numeral isNumeral, whole, rfl⟩
  · cases ran

/-- A key that is passed over is a string and its colon. -/
theorem covers_of_key (passed : key text = .ok rest) :
    ∃ inside, IsInside inside ∧ Covers [stringToken inside, [':']] text rest := by
  unfold key at passed
  split at passed
  · cases passed
  next c tail seen =>
  split at passed
  · next quote =>
      split at passed
      · cases passed
      next behind ran =>
      obtain ⟨inside, isInside, rfl⟩ := exists_isInside_of_string ran
      obtain rfl := eq_of_beq quote
      have ahead : skipBlanks text = stringToken inside ++ behind := by simp [seen, stringToken]
      refine ⟨inside, isInside, .cons ahead ?_⟩
      unfold readColon at passed
      split at passed
      · cases passed
      next seenColon =>
      split at passed
      · next colon =>
          cases passed
          exact .token (by rw [seenColon, eq_of_beq colon]; rfl)
      · cases passed
  · cases passed

/-! ## What a state demands -/

/-- The tokens of an item of a container: a value, or a member. -/
inductive IsItem : Enclosure → List Token → Prop where
  | value {value : List Token} (isValue : IsValue value) : IsItem .array value
  | member {inside : List Char} {value : List Token} (isInside : IsInside inside)
      (isValue : IsValue value) : IsItem .object (stringToken inside :: [':'] :: value)

/-- The tokens that end the open containers, innermost first. The innermost one may hold no item
so far. -/
def Ends : List Enclosure → Bool → List Token → Prop
  | [], _, tokens => tokens = []
  | .array :: outer, first, tokens => ∃ items more, (∀ item ∈ items, IsValue item) ∧
      tokens = itemsTokens first items ++ more ∧ Ends outer false more
  | .object :: outer, first, tokens => ∃ members more, AreMembers members ∧
      tokens = membersTokens first members ++ more ∧ Ends outer false more

/-- The tokens that must still come in a state of the skimmer. -/
def Demands : List Enclosure → Awaiting → List Token → Prop
  | enclosures, .value, tokens => ∃ value more, IsValue value ∧ tokens = value ++ more ∧
      Ends enclosures false more
  | [], .item, tokens => tokens = []
  | enclosure :: outer, .item, tokens => ∃ item more, IsItem enclosure item ∧
      tokens = item ++ more ∧ Ends (enclosure :: outer) false more
  | enclosures, .firstItem, tokens => Ends enclosures true tokens
  | enclosures, .nextItem, tokens => Ends enclosures false tokens

variable {enclosure : Enclosure} {outer : List Enclosure} {more : List Token}

/-- A container may end. -/
theorem Ends.closer (first : Bool) (ends : Ends outer false more) :
    Ends (enclosure :: outer) first ([enclosure.closer] :: more) := by
  cases enclosure with
  | array => exact ⟨[], more, List.forall_mem_nil _, rfl, ends⟩
  | object => exact ⟨[], more, ⟨List.forall_mem_nil _, List.forall_mem_nil _⟩, rfl, ends⟩

/-- A container may go on with an item. -/
theorem Ends.item {item : List Token} (first : Bool) (isItem : IsItem enclosure item)
    (ends : Ends (enclosure :: outer) false more) :
    Ends (enclosure :: outer) first (leadTokens first ++ (item ++ more)) := by
  cases isItem with
  | value isValue =>
      obtain ⟨items, behind, values, rfl, further⟩ := ends
      refine ⟨item :: items, behind, List.forall_mem_cons.mpr ⟨isValue, values⟩, ?_, further⟩
      simp only [itemsTokens, List.append_assoc]
  | @member inside value isInside isValue =>
      obtain ⟨members, behind, areMembers, rfl, further⟩ := ends
      refine ⟨⟨inside, value⟩ :: members, behind,
        ⟨List.forall_mem_cons.mpr ⟨isInside, areMembers.keys⟩,
          List.forall_mem_cons.mpr ⟨isValue, areMembers.values⟩⟩, ?_, further⟩
      simp only [membersTokens, List.append_assoc, List.cons_append]

/-- What ends a container that was just opened makes a value of it. -/
theorem Ends.opened (ends : Ends (enclosure :: outer) true more) :
    Demands outer .value ([enclosure.opener] :: more) := by
  cases enclosure with
  | array =>
      obtain ⟨items, behind, values, rfl, further⟩ := ends
      exact ⟨arrayTokens items, behind, .array values, rfl, further⟩
  | object =>
      obtain ⟨members, behind, areMembers, rfl, further⟩ := ends
      exact ⟨objectTokens members, behind, areMembers.isValue, rfl, further⟩

/-- The skimmer takes off a text what its state demands. The induction follows the skimmer: every
step takes off the tokens that its state demands beyond those of the next. -/
theorem exists_demands_of_run {awaiting : Awaiting} {enclosures : List Enclosure}
    (ran : run enclosures awaiting text = .ok rest) :
    ∃ tokens, Demands enclosures awaiting tokens ∧ Covers tokens text rest := by
  fun_induction run enclosures awaiting text with
  | case1 => cases ran
  | case2 enclosures text behind passed _ inductionHypothesis =>
      obtain ⟨more, ends, covers⟩ := inductionHypothesis ran
      rcases of_head passed with ⟨token, _, isAtom, seen, ⟨⟩⟩ | ⟨_, _, -, ⟨⟩⟩
      exact ⟨token :: more, ⟨[token], more, .atom isAtom, rfl, ends⟩, covers.cons seen⟩
  | case3 enclosures text enclosure behind passed _ inductionHypothesis =>
      obtain ⟨more, ends, covers⟩ := inductionHypothesis ran
      rcases of_head passed with ⟨_, _, -, -, ⟨⟩⟩ | ⟨_, _, seen, ⟨⟩⟩
      exact ⟨_, Ends.opened ends, covers.cons seen⟩
  | case4 awaiting text notValue =>
      cases ran
      refine ⟨[], ?_, .nil _⟩
      cases awaiting with
      | value => exact absurd rfl notValue
      | item => rfl
      | firstItem => rfl
      | nextItem => rfl
  | case5 text inner inductionHypothesis =>
      obtain ⟨_, ⟨value, more, isValue, rfl, ends⟩, covers⟩ := inductionHypothesis ran
      exact ⟨_, ⟨value, more, .value isValue, rfl, ends⟩, covers⟩
  | case6 => cases ran
  | case7 text inner behind passed _ inductionHypothesis =>
      obtain ⟨_, ⟨value, more, isValue, rfl, ends⟩, covers⟩ := inductionHypothesis ran
      obtain ⟨inside, isInside, coversKey⟩ := covers_of_key passed
      exact ⟨_, ⟨_, more, .member isInside isValue, rfl, ends⟩, coversKey.append covers⟩
  | case8 => cases ran
  | case9 text enclosure inner c behind seen _ closes inductionHypothesis =>
      obtain rfl := eq_of_beq closes
      obtain ⟨more, ends, covers⟩ := inductionHypothesis ran
      exact ⟨_, Ends.closer true ends, covers.cons seen⟩
  | case10 text enclosure inner c behind seen _ inside inductionHypothesis =>
      obtain ⟨_, ⟨item, more, isItem, rfl, ends⟩, covers⟩ := inductionHypothesis ran
      exact ⟨_, Ends.item true isItem ends, covers⟩
  | case11 => cases ran
  | case12 text enclosure inner c behind seen _ comma inductionHypothesis =>
      obtain rfl := eq_of_beq comma
      obtain ⟨_, ⟨item, more, isItem, rfl, ends⟩, covers⟩ := inductionHypothesis ran
      exact ⟨_, Ends.item false isItem ends, covers.cons seen⟩
  | case13 text enclosure inner c behind seen _ _ closes inductionHypothesis =>
      obtain rfl := eq_of_beq closes
      obtain ⟨more, ends, covers⟩ := inductionHypothesis ran
      exact ⟨_, Ends.closer false ends, covers.cons seen⟩
  | case14 => cases ran

end Skim

/-! ## What is read -/

/-- What a reader takes off a text is a value, with separators between its tokens. -/
theorem Reader.Skims.exists_isValue {α : Type} {reader : Reader α} (skims : reader.Skims)
    {text rest : List Char} {result : α} (ran : reader.run text = .ok (result, rest)) :
    ∃ value, IsValue value ∧ Covers value text rest := by
  have passed := skims ran []
  rw [Skim.run_nothing] at passed
  obtain ⟨_, ⟨value, _, isValue, rfl, rfl⟩, covers⟩ := Skim.exists_demands_of_run passed
  rw [List.append_nil] at covers
  exact ⟨value, isValue, covers⟩

/-- A text that is read as a whole is a JSON text. -/
theorem Reader.Skims.exists_spaced {α : Type} {reader : Reader α} (skims : reader.Skims)
    {text : String} {result : α} (parsed : reader.parse text = .ok result) :
    ∃ value, IsValue value ∧ Spaced value text.toList := by
  simp only [Reader.parse] at parsed
  split at parsed
  · cases parsed
  next value rest ran =>
  split at parsed
  · next nothing =>
      obtain ⟨tokens, isValue, covers⟩ := skims.exists_isValue ran
      have spaced := covers (.nil (List.dropWhile_eq_nil_iff.mp nothing))
      rw [List.append_nil] at spaced
      exact ⟨tokens, isValue, spaced⟩
  · cases parsed

end MotionSteps.Json
