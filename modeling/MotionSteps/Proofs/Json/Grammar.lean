import MotionSteps.Proofs.Json.Token

/-!
# JSON texts

A JSON text is a row of tokens with separators in front of each and at the end. `IsValue` says
which rows are values, nested to any depth, with numerals of any size and strings in any spelling.
`Spells` says what a string means. Neither looks at a reader. The separators are the business of
`Spaced` alone, so what is said of the tokens of a text holds in every layout.
-/

namespace MotionSteps.Json

/-- A token of a JSON text. -/
abbrev Token := List Char

/-! ## Strings -/

/-- Four hexadecimal digits, of either case, and the number that they spell. -/
inductive FourHex : List Char → Nat → Prop where
  | digits {a b c d : Char} {first second third fourth : Nat}
      (isFirst : Escape.hexDigit? a = some first) (isSecond : Escape.hexDigit? b = some second)
      (isThird : Escape.hexDigit? c = some third) (isFourth : Escape.hexDigit? d = some fourth) :
      FourHex [a, b, c, d] (((first * 16 + second) * 16 + third) * 16 + fourth)

/-- A character that may stand in a string as it is. -/
structure IsPlain (c : Char) : Prop where
  noQuote : c ≠ '"'
  noBackslash : c ≠ '\\'
  noControl : ¬c.toNat < 0x20

/-- What may stand between the quotes of a string. The digits of an escape may be any. -/
inductive IsInside : List Char → Prop where
  | nil : IsInside []
  | plain {c : Char} {inside : List Char} (plain : IsPlain c) (others : IsInside inside) :
      IsInside (c :: inside)
  | letter {mark named : Char} {inside : List Char} (letter : Escape.letter? mark = some named)
      (others : IsInside inside) : IsInside ('\\' :: mark :: inside)
  | unicode {digits inside : List Char} {code : Nat} (hex : FourHex digits code)
      (others : IsInside inside) : IsInside ('\\' :: 'u' :: (digits ++ inside))

/-- What stands between the quotes of a string spells a text. A character may stand as it is or
be named by an escape. One beyond the basic plane is named by the halves of a surrogate pair,
which name nothing on their own. -/
inductive Spells : List Char → List Char → Prop where
  | nil : Spells [] []
  | plain {c : Char} {inside text : List Char} (plain : IsPlain c) (others : Spells inside text) :
      Spells (c :: inside) (c :: text)
  | letter {mark named : Char} {inside text : List Char}
      (letter : Escape.letter? mark = some named) (others : Spells inside text) :
      Spells ('\\' :: mark :: inside) (named :: text)
  | unicode {digits inside text : List Char} {code : Nat} (hex : FourHex digits code)
      (whole : code < 0xD800 ∨ 0xE000 ≤ code) (others : Spells inside text) :
      Spells ('\\' :: 'u' :: (digits ++ inside)) (Char.ofNat code :: text)
  | pair {high low inside text : List Char} {first second : Nat} (hexHigh : FourHex high first)
      (hexLow : FourHex low second) (isHigh : 0xD800 ≤ first ∧ first < 0xDC00)
      (isLow : 0xDC00 ≤ second ∧ second < 0xE000) (others : Spells inside text) :
      Spells ('\\' :: 'u' :: (high ++ '\\' :: 'u' :: (low ++ inside)))
        (Char.ofNat (0x10000 + (first - 0xD800) * 0x400 + (second - 0xDC00)) :: text)

instance (c : Char) : Decidable (IsPlain c) :=
  decidable_of_iff (c ≠ '"' ∧ c ≠ '\\' ∧ ¬c.toNat < 0x20)
    ⟨fun ⟨quote, backslash, control⟩ => ⟨quote, backslash, control⟩,
      fun plain => ⟨plain.noQuote, plain.noBackslash, plain.noControl⟩⟩

/-- A text of plain characters. -/
def ArePlain (text : List Char) : Prop :=
  ∀ c ∈ text, IsPlain c

instance (text : List Char) : Decidable (ArePlain text) :=
  List.decidableBAll IsPlain text

/-- A text of plain characters spells itself. -/
theorem spells_of_arePlain {text : List Char} (plain : ArePlain text) : Spells text text := by
  induction text with
  | nil => exact .nil
  | cons c text inductionHypothesis =>
      obtain ⟨first, others⟩ := List.forall_mem_cons.mp plain
      exact .plain first (inductionHypothesis others)

/-- A key may have a letter in digits. -/
example : Spells ['\\', 'u', '0', '0', '7', '4', 'y', 'p', 'e'] "type".toList :=
  have hex : FourHex ['0', '0', '7', '4'] (((0 * 16 + 0) * 16 + 7) * 16 + 4) :=
    .digits (by decide) (by decide) (by decide) (by decide)
  .unicode hex (by decide) (spells_of_arePlain (by decide))

theorem Spells.isInside {inside text : List Char} (spells : Spells inside text) :
    IsInside inside := by
  induction spells with
  | nil => exact .nil
  | plain plain _ inductionHypothesis => exact .plain plain inductionHypothesis
  | letter letter _ inductionHypothesis => exact .letter letter inductionHypothesis
  | unicode hex _ _ inductionHypothesis => exact .unicode hex inductionHypothesis
  | pair hexHigh hexLow _ _ _ inductionHypothesis =>
      exact .unicode hexHigh (.unicode hexLow inductionHypothesis)

/-- The token of a string. -/
def stringToken (inside : List Char) : Token :=
  '"' :: (inside ++ ['"'])

/-! ## Numerals -/

/-- Digits, one at least. -/
structure AreDigits (digits : List Char) : Prop where
  filled : digits ≠ []
  numeric : ∀ c ∈ digits, c.isDigit = true

/-- The digits before the point do not begin with a zero, unless it is the only one. -/
structure IsWhole (digits : List Char) : Prop extends AreDigits digits where
  plain : digits.head? = some '0' → digits = ['0']

/-- A fraction, or nothing. -/
inductive IsFraction : List Char → Prop where
  | none : IsFraction []
  | some {digits : List Char} (areDigits : AreDigits digits) : IsFraction ('.' :: digits)

/-- An exponent, or nothing. -/
inductive IsExponent : List Char → Prop where
  | none : IsExponent []
  | some {mark : Char} {sign digits : List Char} (marked : mark = 'e' ∨ mark = 'E')
      (signed : sign ∈ [[], ['+'], ['-']]) (areDigits : AreDigits digits) :
      IsExponent (mark :: (sign ++ digits))

/-- A numeral of JSON. -/
inductive IsNumeral : Token → Prop where
  | parts {sign whole fraction exponent : List Char} (signed : sign ∈ [[], ['-']])
      (isWhole : IsWhole whole) (isFraction : IsFraction fraction)
      (isExponent : IsExponent exponent) :
      IsNumeral (sign ++ (whole ++ (fraction ++ exponent)))

/-! ## Values -/

/-- A value of one token. -/
inductive IsAtom : Token → Prop where
  | null : IsAtom ['n', 'u', 'l', 'l']
  | true : IsAtom ['t', 'r', 'u', 'e']
  | false : IsAtom ['f', 'a', 'l', 's', 'e']
  | numeral {numeral : Token} (isNumeral : IsNumeral numeral) : IsAtom numeral
  | string {inside : List Char} (isInside : IsInside inside) : IsAtom (stringToken inside)

/-- A member of an object: what stands between the quotes of its key, and the tokens of its
value. -/
structure SpelledMember where
  inside : List Char
  value : List Token

/-- A comma stands in front of each item but the first. -/
def leadTokens (first : Bool) : List Token :=
  if first then [] else [[',']]

/-- The tokens of the items of an array and of its end. -/
def itemsTokens (first : Bool) : List (List Token) → List Token
  | [] => [[']']]
  | item :: items => leadTokens first ++ (item ++ itemsTokens false items)

/-- The tokens of the members of an object and of its end. -/
def membersTokens (first : Bool) : List SpelledMember → List Token
  | [] => [['\x7d']]
  | member :: members =>
      leadTokens first ++
        (stringToken member.inside :: [':'] :: (member.value ++ membersTokens false members))

/-- The tokens of an array. -/
def arrayTokens (items : List (List Token)) : List Token :=
  ['['] :: itemsTokens true items

/-- The tokens of an object. -/
def objectTokens (members : List SpelledMember) : List Token :=
  ['\x7b'] :: membersTokens true members

/-- The tokens of a value. -/
inductive IsValue : List Token → Prop where
  | atom {token : Token} (isAtom : IsAtom token) : IsValue [token]
  | array {items : List (List Token)} (values : ∀ item ∈ items, IsValue item) :
      IsValue (arrayTokens items)
  | object {members : List SpelledMember} (keys : ∀ member ∈ members, IsInside member.inside)
      (values : ∀ member ∈ members, IsValue member.value) : IsValue (objectTokens members)

/-- The tokens of a value that opens at most so many containers one inside another. -/
inductive NestsWithin : Nat → List Token → Prop where
  | atom {limit : Nat} {token : Token} (isAtom : IsAtom token) : NestsWithin limit [token]
  | array {limit : Nat} {items : List (List Token)}
      (values : ∀ item ∈ items, NestsWithin limit item) :
      NestsWithin (limit + 1) (arrayTokens items)
  | object {limit : Nat} {members : List SpelledMember}
      (keys : ∀ member ∈ members, IsInside member.inside)
      (values : ∀ member ∈ members, NestsWithin limit member.value) :
      NestsWithin (limit + 1) (objectTokens members)

theorem NestsWithin.isValue {limit : Nat} {value : List Token} (nests : NestsWithin limit value) :
    IsValue value := by
  induction nests with
  | atom isAtom => exact .atom isAtom
  | array _ inductionHypothesis => exact .array inductionHypothesis
  | object keys _ inductionHypothesis => exact .object keys inductionHypothesis

/-- The members of an object of the grammar. -/
structure AreMembers (members : List SpelledMember) : Prop where
  keys : ∀ member ∈ members, IsInside member.inside
  values : ∀ member ∈ members, IsValue member.value

theorem AreMembers.isValue {members : List SpelledMember} (areMembers : AreMembers members) :
    IsValue (objectTokens members) :=
  .object areMembers.keys areMembers.values

theorem AreMembers.append_cons {before after : List SpelledMember} {member : SpelledMember}
    (areBefore : AreMembers before) (isInside : IsInside member.inside)
    (isValue : IsValue member.value) (areAfter : AreMembers after) :
    AreMembers (before ++ member :: after) := by
  constructor
  · exact List.forall_mem_append.mpr
      ⟨areBefore.keys, List.forall_mem_cons.mpr ⟨isInside, areAfter.keys⟩⟩
  · exact List.forall_mem_append.mpr
      ⟨areBefore.values, List.forall_mem_cons.mpr ⟨isValue, areAfter.values⟩⟩

/-! ## Texts -/

/-- A text of tokens with separators in front of each and at the end. -/
inductive Spaced : List Token → List Char → Prop where
  | nil {blanks : List Char} (blank : Separators blanks) : Spaced [] blanks
  | cons {token : Token} {tokens : List Token} {blanks rest : List Char}
      (blank : Separators blanks) (others : Spaced tokens rest) :
      Spaced (token :: tokens) (blanks ++ (token ++ rest))

/-- Every row of tokens has a text. -/
theorem spaced_flatMap_cons (tokens : List Token) :
    Spaced tokens (tokens.flatMap fun token => ' ' :: token) := by
  have blank : Separators [' '] := by simp [Separators, isSeparator]
  induction tokens with
  | nil => exact .nil separators_nil
  | cons token tokens inductionHypothesis => exact .cons blank inductionHypothesis

/-- What may follow a value: nothing, a comma or a closing bracket. -/
def Closes (tokens : List Token) : Prop :=
  ∀ token ∈ tokens.head?, token ∈ [[','], [']'], ['\x7d']]

theorem closes_nil : Closes [] := by
  intro token first
  cases first

theorem closes_itemsTokens (items : List (List Token)) (more : List Token) :
    Closes (itemsTokens false items ++ more) := by
  cases items with
  | nil => rintro token ⟨⟩; decide
  | cons item items => rintro token ⟨⟩; decide

theorem closes_membersTokens (members : List SpelledMember) (more : List Token) :
    Closes (membersTokens false members ++ more) := by
  cases members with
  | nil => rintro token ⟨⟩; decide
  | cons member members => rintro token ⟨⟩; decide

/-- In every layout a value stands in front of a delimiter. -/
theorem Spaced.delimited {tokens : List Token} {text : List Char} (spaced : Spaced tokens text)
    (closes : Closes tokens) : Delimited text := by
  cases spaced with
  | nil blank => exact List.append_nil text ▸ delimited_append blank delimited_nil
  | @cons token tokens blanks rest blank others =>
      refine delimited_append blank ?_
      have closing := closes token rfl
      simp only [List.mem_cons, List.not_mem_nil, or_false] at closing
      rcases closing with rfl | rfl | rfl <;> exact delimited_cons rfl

/-- The separators in front of a token are skipped. -/
theorem Spaced.exists_skipBlanks {c : Char} {token : Token} {more : List Token} {text : List Char}
    (spaced : Spaced ((c :: token) :: more) text) (inside : isSeparator c = false) :
    ∃ rest, Spaced more rest ∧ skipBlanks text = c :: (token ++ rest) := by
  cases spaced with
  | @cons _ _ blanks rest blank others => exact ⟨rest, others, skipBlanks_append blank inside⟩

/-- A row of tokens that begins with no delimiter. -/
def Begins (tokens : List Token) : Prop :=
  ∃ c token others, tokens = (c :: token) :: others ∧ isDelimiter c = false

theorem begins_objectTokens (members : List SpelledMember) : Begins (objectTokens members) :=
  ⟨_, _, _, rfl, rfl⟩

theorem Begins.append {tokens : List Token} (begins : Begins tokens) (more : List Token) :
    Begins (tokens ++ more) := by
  obtain ⟨c, token, others, rfl, inside⟩ := begins
  exact ⟨c, token, others ++ more, rfl, inside⟩

/-- What stands behind the separators in front of a row is the row. -/
theorem Spaced.exists_begins {tokens : List Token} {text : List Char} (spaced : Spaced tokens text)
    (begins : Begins tokens) :
    ∃ c rest, isDelimiter c = false ∧ skipBlanks text = c :: rest ∧ Spaced tokens (c :: rest) := by
  obtain ⟨c, token, others, rfl, inside⟩ := begins
  obtain ⟨rest, spacedOthers, seen⟩ :=
    spaced.exists_skipBlanks (isSeparator_of_not_isDelimiter inside)
  exact ⟨c, token ++ rest, inside, seen, .cons separators_nil spacedOthers⟩

end MotionSteps.Json
