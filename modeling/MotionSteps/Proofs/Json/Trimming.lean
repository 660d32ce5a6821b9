import MotionSteps.Proofs.Json.Carries
import MotionSteps.Proofs.Json.Soundness
import MotionSteps.Proofs.Text.Uppercase

/-!
# JSON texts between blanks

More characters are blank than may stand around a JSON text. Trimming a JSON text takes off
separators only, since no value begins or ends with a blank, and leaves another layout of the same
value. `parse_eq_ok_iff_trim` states what trimming first makes of reading: a text is read as a value
exactly when it is so once trimmed and the blanks at its ends are separators.
-/

namespace MotionSteps

namespace Text

/-- No blank is a digit. -/
theorem not_isBlank_of_isDigit {c : Char} (digit : c.isDigit = true) : isBlank c = false := by
  simp only [Char.isDigit, Bool.and_eq_true, decide_eq_true_eq, ge_iff_le,
    UInt32.le_iff_toNat_le] at digit
  have low : 48 ≤ c.toNat := digit.1
  have high : c.toNat ≤ 57 := digit.2
  simp only [isBlank, Bool.or_eq_false_iff, Bool.and_eq_false_iff, decide_eq_false_iff_not,
    beq_eq_false_iff_ne]
  omega

theorem takeWhile_isBlank_eq_nil {text : List Char} (front : ∀ c ∈ text.head?, isBlank c = false) :
    text.takeWhile isBlank = [] := by
  cases text with
  | nil => rfl
  | cons c text => rw [List.takeWhile_cons_of_neg (by simp [front c rfl])]

/-- The blanks in front of a text are still in front when it goes on. -/
theorem takeWhile_subset_append (text others : List Char) :
    text.takeWhile isBlank ⊆ (text ++ others).takeWhile isBlank := by
  induction text with
  | nil => exact List.nil_subset _
  | cons c text inductionHypothesis =>
      by_cases blank : isBlank c = true
      · rw [List.cons_append, List.takeWhile_cons_of_pos blank, List.takeWhile_cons_of_pos blank]
        exact List.cons_subset_cons c inductionHypothesis
      · rw [List.takeWhile_cons_of_neg blank]
        exact List.nil_subset _

/-- A text without blanks has none at its ends. -/
theorem trimmed_of_visible {text : List Char} (visible : ∀ c ∈ text, isBlank c = false) :
    Trimmed text :=
  ⟨fun c first => visible c (List.mem_of_mem_head? first),
    fun c last => visible c (List.mem_of_mem_getLast? last)⟩

/-- What stands between trimmed texts has no part in whether the whole is trimmed. -/
theorem Trimmed.append_append {text others : List Char} (trimmed : Trimmed text)
    (filled : text ≠ []) (trimmedToo : Trimmed others) (filledToo : others ≠ [])
    (between : List Char) : Trimmed (text ++ (between ++ others)) := by
  constructor
  · rw [List.head?_append_of_ne_nil _ filled]
    exact trimmed.front
  · rw [List.getLast?_append_of_ne_nil _ (List.append_ne_nil_of_right_ne_nil _ filledToo),
      List.getLast?_append_of_ne_nil _ filledToo]
    exact trimmedToo.back

end Text

namespace Json

/-- The blanks at both ends of a text are separators. -/
structure PlainlyPadded (text : String) : Prop where
  front : Separators (text.toList.takeWhile Text.isBlank)
  back : Separators (text.toList.reverse.takeWhile Text.isBlank)

instance (text : List Char) : Decidable (Separators text) :=
  List.decidableBAll _ text

instance (text : String) : Decidable (PlainlyPadded text) :=
  decidable_of_iff (Separators (text.toList.takeWhile Text.isBlank) ∧
      Separators (text.toList.reverse.takeWhile Text.isBlank))
    ⟨fun ⟨front, back⟩ => ⟨front, back⟩, fun padded => ⟨padded.front, padded.back⟩⟩

/-- A no-break space is blank and no separator. -/
example : ¬ PlainlyPadded "\u00a0\x7b\x7d" := by decide

theorem isBlank_of_separators {blanks : List Char} (blank : Separators blanks) :
    ∀ c ∈ blanks, Text.isBlank c = true := by
  intro c member
  have separator := blank c member
  simp only [isSeparator, Bool.or_eq_true, beq_iff_eq] at separator
  rcases separator with ((rfl | rfl) | rfl) | rfl <;> decide

/-- A plainly padded text is its trimmed text with separators around it. -/
theorem PlainlyPadded.exists_eq {text : String} (padded : PlainlyPadded text) :
    ∃ before behind, Separators before ∧ Separators behind ∧
      text.toList = before ++ ((Text.trim text).toList ++ behind) := by
  let kept := text.toList.dropWhile Text.isBlank
  have ends : kept <:+ text.toList := List.dropWhile_suffix Text.isBlank
  obtain ⟨front, whole⟩ := List.reverse_prefix.mpr ends
  have within : kept.reverse.takeWhile Text.isBlank ⊆
      text.toList.reverse.takeWhile Text.isBlank :=
    whole ▸ Text.takeWhile_subset_append kept.reverse front
  refine ⟨_, (kept.reverse.takeWhile Text.isBlank).reverse, padded.front,
    fun c member => padded.back c (within (List.mem_reverse.mp member)), ?_⟩
  rw [Text.toList_trim, Text.trimChars, ← List.reverse_append, List.takeWhile_append_dropWhile,
    List.reverse_reverse, List.takeWhile_append_dropWhile]

/-! ## The tokens of a value -/

/-- A token that is not empty and neither begins nor ends with a blank. -/
structure IsCrisp (token : Token) : Prop where
  filled : token ≠ []
  trimmed : Text.Trimmed token

instance (token : Token) : Decidable (IsCrisp token) :=
  decidable_of_iff (token ≠ [] ∧ token.head?.all (fun c => !Text.isBlank c) = true ∧
      token.getLast?.all (fun c => !Text.isBlank c) = true) <| by
    simp only [Option.all_eq_true, Bool.not_eq_true']
    exact ⟨fun ⟨filled, front, back⟩ => ⟨filled, front, back⟩,
      fun crisp => ⟨crisp.filled, crisp.trimmed.front, crisp.trimmed.back⟩⟩

theorem IsCrisp.of_visible {token : Token} (filled : token ≠ [])
    (visible : ∀ c ∈ token, Text.isBlank c = false) : IsCrisp token :=
  ⟨filled, Text.trimmed_of_visible visible⟩

theorem isCrisp_stringToken (inside : List Char) : IsCrisp (stringToken inside) := by
  have quote : IsCrisp ['"'] := by decide
  exact ⟨List.cons_ne_nil _ _,
    quote.trimmed.append_append quote.filled quote.trimmed quote.filled inside⟩

theorem IsNumeral.isCrisp {numeral : Token} (isNumeral : IsNumeral numeral) : IsCrisp numeral := by
  obtain ⟨c, tail, begins, -⟩ := isNumeral.begins
  refine .of_visible (begins ▸ List.cons_ne_nil c tail) ?_
  have digits : ∀ {digits : List Char}, AreDigits digits →
      ∀ c ∈ digits, Text.isBlank c = false :=
    fun areDigits c member => Text.not_isBlank_of_isDigit (areDigits.numeric c member)
  cases isNumeral with
  | @parts sign whole fraction exponent signed isWhole isFraction isExponent =>
      simp only [List.forall_mem_append]
      refine ⟨?_, digits isWhole.toAreDigits, ?_, ?_⟩
      · have visible : ∀ sign ∈ [[], ['-']], sign.all (fun c => !Text.isBlank c) = true := by decide
        simpa using visible sign signed
      · cases isFraction with
        | none => exact List.forall_mem_nil _
        | some areDigits => exact List.forall_mem_cons.mpr ⟨by decide, digits areDigits⟩
      · cases isExponent with
        | none => exact List.forall_mem_nil _
        | @some mark plus power marked signed areDigits =>
            refine List.forall_mem_cons.mpr ⟨?_, List.forall_mem_append.mpr ⟨?_, digits areDigits⟩⟩
            · rcases marked with rfl | rfl <;> decide
            · have visible : ∀ plus ∈ [[], ['+'], ['-']],
                  plus.all (fun c => !Text.isBlank c) = true := by decide
              simpa using visible plus signed

theorem IsAtom.isCrisp {token : Token} (isAtom : IsAtom token) : IsCrisp token := by
  cases isAtom with
  | numeral isNumeral => exact isNumeral.isCrisp
  | string _ => exact isCrisp_stringToken _
  | _ => decide

theorem isCrisp_leadTokens (first : Bool) : ∀ token ∈ leadTokens first, IsCrisp token := by
  cases first with
  | true => exact List.forall_mem_nil _
  | false => exact List.forall_mem_singleton.mpr (by decide)

theorem isCrisp_itemsTokens {items : List (List Token)}
    (each : ∀ item ∈ items, ∀ token ∈ item, IsCrisp token) (first : Bool) :
    ∀ token ∈ itemsTokens first items, IsCrisp token := by
  induction items generalizing first with
  | nil => exact List.forall_mem_singleton.mpr (by decide)
  | cons item items inductionHypothesis =>
      obtain ⟨one, others⟩ := List.forall_mem_cons.mp each
      simp only [itemsTokens, List.forall_mem_append]
      exact ⟨isCrisp_leadTokens first, one, inductionHypothesis others false⟩

theorem isCrisp_membersTokens {members : List SpelledMember}
    (each : ∀ member ∈ members, ∀ token ∈ member.value, IsCrisp token) (first : Bool) :
    ∀ token ∈ membersTokens first members, IsCrisp token := by
  induction members generalizing first with
  | nil => exact List.forall_mem_singleton.mpr (by decide)
  | cons member members inductionHypothesis =>
      obtain ⟨one, others⟩ := List.forall_mem_cons.mp each
      simp only [membersTokens, List.forall_mem_append, List.forall_mem_cons]
      exact ⟨isCrisp_leadTokens first, isCrisp_stringToken _, by decide, one,
        inductionHypothesis others false⟩

/-- No token of a value begins or ends with a blank. -/
theorem IsValue.isCrisp {value : List Token} (isValue : IsValue value) :
    ∀ token ∈ value, IsCrisp token := by
  induction isValue with
  | atom isAtom => exact List.forall_mem_singleton.mpr isAtom.isCrisp
  | array _ inductionHypothesis =>
      exact List.forall_mem_cons.mpr ⟨by decide, isCrisp_itemsTokens inductionHypothesis true⟩
  | object _ _ inductionHypothesis =>
      exact List.forall_mem_cons.mpr ⟨by decide, isCrisp_membersTokens inductionHypothesis true⟩

/-! ## Trimming -/

theorem IsValue.ne_nil {value : List Token} (isValue : IsValue value) : value ≠ [] := by
  obtain ⟨c, token, others, same, -⟩ := isValue.begins
  exact same ▸ List.cons_ne_nil _ _

/-- A text of crisp tokens is a trimmed one with separators around it. -/
theorem Spaced.exists_trimmed {tokens : List Token} {text : List Char}
    (spaced : Spaced tokens text) (filled : tokens ≠ [])
    (crisp : ∀ token ∈ tokens, IsCrisp token) :
    ∃ before core behind, text = before ++ (core ++ behind) ∧ Separators before ∧
      Separators behind ∧ core ≠ [] ∧ Text.Trimmed core ∧ Spaced tokens core := by
  induction spaced with
  | nil _ => exact absurd rfl filled
  | @cons token tokens blanks rest blank others inductionHypothesis =>
      obtain ⟨here, crispOthers⟩ := List.forall_mem_cons.mp crisp
      by_cases last : tokens = []
      · subst last
        cases others with
        | nil blankBehind =>
            have alone : Spaced [token] ([] ++ (token ++ [])) :=
              .cons separators_nil (.nil separators_nil)
            refine ⟨blanks, token, rest, rfl, blank, blankBehind, here.filled, here.trimmed, ?_⟩
            simpa using alone
      · obtain ⟨between, core, behind, rfl, blankBetween, blankBehind, coreFilled, trimmed,
          spacedCore⟩ := inductionHypothesis last crispOthers
        refine ⟨blanks, token ++ (between ++ core), behind, by simp, blank, blankBehind,
          List.append_ne_nil_of_left_ne_nil here.filled _,
          here.trimmed.append_append here.filled trimmed coreFilled between, ?_⟩
        exact .cons separators_nil (spacedCore.append_front blankBetween)

/-- Trimming leaves another layout of a value. -/
theorem Spaced.trimChars {value : List Token} {text : List Char} (spaced : Spaced value text)
    (isValue : IsValue value) : Spaced value (Text.trimChars text) := by
  obtain ⟨before, core, behind, rfl, blank, blankBehind, filled, trimmed, spacedCore⟩ :=
    spaced.exists_trimmed isValue.ne_nil isValue.isCrisp
  rwa [trimmed.trimChars_append filled (isBlank_of_separators blank)
    (isBlank_of_separators blankBehind)]

/-- The blanks at the ends of a value are separators. -/
theorem PlainlyPadded.of_spaced {value : List Token} {text : String}
    (spaced : Spaced value text.toList) (isValue : IsValue value) : PlainlyPadded text := by
  obtain ⟨before, core, behind, whole, blank, blankBehind, filled, trimmed, -⟩ :=
    spaced.exists_trimmed isValue.ne_nil isValue.isCrisp
  constructor
  · rw [whole, List.takeWhile_append_of_pos (isBlank_of_separators blank),
      Text.takeWhile_isBlank_eq_nil, List.append_nil]
    · exact blank
    · rw [List.head?_append_of_ne_nil _ filled]
      exact trimmed.front
  · have blanksBehind : ∀ c ∈ behind.reverse, Text.isBlank c = true :=
      fun c member => isBlank_of_separators blankBehind c (List.mem_reverse.mp member)
    rw [whole, ← List.append_assoc, List.reverse_append, List.takeWhile_append_of_pos blanksBehind,
      Text.takeWhile_isBlank_eq_nil, List.append_nil]
    · exact fun c member => blankBehind c (List.mem_reverse.mp member)
    · rw [List.head?_reverse, List.getLast?_append_of_ne_nil _ filled]
      exact trimmed.back

/-- Two layouts of the same value are read alike. -/
theorem IsValue.parse_eq_ok {tokens : List Token} (isValue : IsValue tokens) {text other : String}
    (spaced : Spaced tokens text.toList) (spacedOther : Spaced tokens other.toList) {value : Json}
    (parsed : Json.parse text = .ok value) : Json.parse other = .ok value := by
  obtain ⟨found, rfl, parsedOther⟩ :=
    (carries_value isValue (Nat.le_refl maxDepth)).parse spaced spacedOther parsed
  exact parsedOther

/-- A text is read as a value exactly when it is so once trimmed and the blanks at its ends are
separators. -/
theorem parse_eq_ok_iff_trim {text : String} {value : Json} :
    Json.parse text = .ok value ↔
      PlainlyPadded text ∧ Json.parse (Text.trim text) = .ok value := by
  constructor
  · intro parsed
    obtain ⟨tokens, isValue, spaced⟩ := (Reader.Skims.value maxDepth).exists_spaced parsed
    have spacedTrimmed : Spaced tokens (Text.trim text).toList := by
      rw [Text.toList_trim]
      exact spaced.trimChars isValue
    exact ⟨.of_spaced spaced isValue, isValue.parse_eq_ok spaced spacedTrimmed parsed⟩
  · rintro ⟨padded, parsed⟩
    obtain ⟨tokens, isValue, spaced⟩ := (Reader.Skims.value maxDepth).exists_spaced parsed
    obtain ⟨before, behind, blank, blankBehind, same⟩ := padded.exists_eq
    have spacedText : Spaced tokens text.toList := by
      rw [same]
      exact (spaced.append_behind blankBehind).append_front blank
    exact isValue.parse_eq_ok spaced spacedText parsed

end Json

end MotionSteps
