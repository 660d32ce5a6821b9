import MotionSteps.Json.Reader.Skim
import MotionSteps.Proofs.Json.Spelling

/-!
# Skimming

The skimmer passes over every value of the grammar and stops right behind it, however deep the
value is nested, whatever its numerals are and whether its strings mean anything. What it has to do
is told step by step: over a scalar, into a container, on to the next item and out of the container
again.
-/

namespace MotionSteps.Json

namespace Skim

section

variable {text rest behind : List Char} {outer : List Enclosure}

/-! ## Strings -/

theorem string_quote : string ('"' :: rest) = .ok rest := by
  rw [string]
  simp

theorem string_escape (passed : escape rest = .ok behind) :
    string ('\\' :: rest) = string behind := by
  rw [string]
  simp only [show ('\\' == '"') = false from rfl, Bool.false_eq_true, if_false, beq_self_eq_true,
    if_true]
  split
  · next failed => rw [passed] at failed; cases failed
  · next done =>
      rw [passed] at done
      cases done
      rfl

theorem string_plain {c : Char} (noQuote : c ≠ '"') (noBackslash : c ≠ '\\')
    (noControl : ¬c.toNat < 0x20) : string (c :: rest) = string rest := by
  rw [string]
  simp [noQuote, noBackslash, noControl]

theorem escape_letter {mark named : Char} (letter : Escape.letter? mark = some named) :
    escape (mark :: rest) = .ok rest := by
  simp [escape, letter]

theorem escape_unicode {code : Nat} (hex : Escape.fourHex text = .ok (code, rest)) :
    escape ('u' :: text) = .ok rest := by
  simp [escape, hex, show Escape.letter? 'u' = none from rfl]

/-- A string is passed over to its closing quote, also if it names halves of pairs. -/
theorem string_append {inside : List Char} (isInside : IsInside inside) (rest : List Char) :
    string (inside ++ '"' :: rest) = .ok rest := by
  induction isInside with
  | nil => exact string_quote
  | plain plain _ inductionHypothesis =>
      rw [List.cons_append, string_plain plain.noQuote plain.noBackslash plain.noControl,
        inductionHypothesis]
  | letter letter _ inductionHypothesis =>
      rw [List.cons_append, List.cons_append, string_escape (escape_letter letter),
        inductionHypothesis]
  | unicode hex _ inductionHypothesis =>
      simp only [List.cons_append, List.append_assoc]
      rw [string_escape (escape_unicode (Escape.fourHex_append hex _)), inductionHypothesis]

/-! ## Steps -/

theorem run_of_fault {fault : Fault} (failed : head text = .error fault) :
    run outer .value text = .error fault := by
  rw [run]
  split
  · next same => rw [failed] at same; cases same; rfl
  · next other => rw [failed] at other; cases other
  · next other => rw [failed] at other; cases other

theorem run_of_scalar (passed : head text = .ok (.scalar rest)) :
    run outer .value text = run outer .nextItem rest := by
  rw [run]
  split
  · next failed => rw [passed] at failed; cases failed
  · next done => rw [passed] at done; cases done; rfl
  · next other => rw [passed] at other; cases other

theorem run_of_opened {enclosure : Enclosure}
    (passed : head text = .ok (.opened enclosure rest)) :
    run outer .value text = run (enclosure :: outer) .firstItem rest := by
  rw [run]
  split
  · next failed => rw [passed] at failed; cases failed
  · next other => rw [passed] at other; cases other
  · next done => rw [passed] at done; cases done; rfl

theorem run_nothing (text : List Char) : run [] .nextItem text = .ok text := by
  simp only [run]

theorem run_item_array : run (.array :: outer) .item text = run (.array :: outer) .value text := by
  conv => lhs; rw [run]

theorem run_item_object (passed : key text = .ok rest) :
    run (.object :: outer) .item text = run (.object :: outer) .value rest := by
  conv => lhs; rw [run]
  split
  · next failed => rw [passed] at failed; cases failed
  · next done => rw [passed] at done; cases done; rfl

/-- What is awaited between the items of a container. -/
def turn (first : Bool) : Awaiting :=
  if first then .firstItem else .nextItem

/-- A container is left at its bracket, whether it holds an item or not. -/
theorem run_closed {enclosure : Enclosure} (first : Bool)
    (seen : skipBlanks text = enclosure.closer :: rest) :
    run (enclosure :: outer) (turn first) text = run outer .nextItem rest := by
  have notComma : (enclosure.closer == ',') = false := by cases enclosure <;> rfl
  cases first with
  | true =>
      rw [turn, if_pos rfl, run]
      split
      · next none => rw [seen] at none; cases none
      · next some =>
          rw [seen] at some
          cases some
          simp
  | false =>
      rw [turn, if_neg Bool.false_ne_true, run]
      split
      · next none => rw [seen] at none; cases none
      · next some =>
          rw [seen] at some
          cases some
          simp [notComma]

theorem run_first {enclosure : Enclosure} {c : Char} (seen : skipBlanks text = c :: rest)
    (inside : c ≠ enclosure.closer) :
    run (enclosure :: outer) .firstItem text = run (enclosure :: outer) .item text := by
  rw [run]
  split
  · next none => rw [seen] at none; cases none
  · next some =>
      rw [seen] at some
      cases some
      rw [if_neg (by simpa using inside)]

theorem run_comma {enclosure : Enclosure} (seen : skipBlanks text = ',' :: rest) :
    run (enclosure :: outer) .nextItem text = run (enclosure :: outer) .item rest := by
  rw [run]
  split
  · next none => rw [seen] at none; cases none
  · next some =>
      rw [seen] at some
      cases some
      rfl

end

/-! ## Values of the grammar -/

variable {text : List Char} {more : List Token}

theorem head_numeral {c : Char} {rest : List Char} (seen : skipBlanks text = c :: rest)
    (numeric : c = '-' ∨ c.isDigit = true) :
    head text = (Numeral.scan .malformedNumber (c :: rest)).map fun (_, behind) =>
      .scalar behind := by
  have away : ∀ other : Char, other ≠ '-' → other.isDigit = false → c ≠ other :=
    fun _ => Head.ne_of_numeral numeric
  have starts : (c == '-' || c.isDigit) = true := by simpa using numeric
  simp [head, seen, away '"' (by decide) (by decide), away '[' (by decide) (by decide),
    away '\x7b' (by decide) (by decide), away 'n' (by decide) (by decide),
    away 't' (by decide) (by decide), away 'f' (by decide) (by decide), starts]

theorem exists_head_atom {token : Token} (isAtom : IsAtom token) (closes : Closes more)
    (spaced : Spaced (token :: more) text) :
    ∃ rest, Spaced more rest ∧ head text = .ok (.scalar rest) := by
  cases isAtom with
  | null =>
      obtain ⟨rest, others, seen⟩ := spaced.exists_skipBlanks rfl
      exact ⟨rest, others, by rw [head, seen]; rfl⟩
  | true =>
      obtain ⟨rest, others, seen⟩ := spaced.exists_skipBlanks rfl
      exact ⟨rest, others, by rw [head, seen]; rfl⟩
  | false =>
      obtain ⟨rest, others, seen⟩ := spaced.exists_skipBlanks rfl
      exact ⟨rest, others, by rw [head, seen]; rfl⟩
  | numeral isNumeral =>
      obtain ⟨parts, scanned⟩ := Numeral.exists_scan .malformedNumber isNumeral
      obtain ⟨c, tail, rfl, numeric⟩ := isNumeral.begins
      have inside := isSeparator_of_not_isDelimiter (Head.not_isDelimiter_of_numeral numeric)
      obtain ⟨rest, others, seen⟩ := spaced.exists_skipBlanks inside
      have ran := Numeral.scan_append scanned fun _ => others.delimited closes
      refine ⟨rest, others, ?_⟩
      rw [head_numeral seen numeric, ← List.cons_append, ran]
      rfl
  | string isInside =>
      obtain ⟨rest, others, seen⟩ := spaced.exists_skipBlanks rfl
      refine ⟨rest, others, ?_⟩
      rw [head, seen, List.append_assoc, List.singleton_append]
      simp [string_append isInside, Except.map]

/-- The next item of a container is found behind its comma. -/
theorem run_lead {first : Bool} {item : List Token}
    (spaced : Spaced (leadTokens first ++ item) text) (begins : Begins item) :
    ∃ start, Spaced item start ∧ ∀ enclosure outer,
      run (enclosure :: outer) (turn first) text = run (enclosure :: outer) .item start := by
  cases first with
  | true =>
      obtain ⟨c, rest, inside, seen, -⟩ := Spaced.exists_begins spaced begins
      obtain ⟨-, noBracket, noBrace⟩ := not_closer_of_not_isDelimiter inside
      refine ⟨text, spaced, fun enclosure outer => run_first seen ?_⟩
      cases enclosure with
      | array => exact noBracket
      | object => exact noBrace
  | false =>
      obtain ⟨rest, others, seen⟩ := spaced.exists_skipBlanks rfl
      exact ⟨rest, others, fun enclosure outer => run_comma seen⟩

theorem run_last {enclosure : Enclosure} {first : Bool}
    (spaced : Spaced ([enclosure.closer] :: more) text) :
    ∃ rest, Spaced more rest ∧ ∀ outer,
      run (enclosure :: outer) (turn first) text = run outer .nextItem rest := by
  obtain ⟨rest, others, seen⟩ := spaced.exists_skipBlanks (by cases enclosure <;> rfl)
  exact ⟨rest, others, fun outer => run_closed first seen⟩

/-- The skimmer passes over a value, whatever may follow it. -/
def PassesOver (value : List Token) : Prop :=
  ∀ ⦃more : List Token⦄ ⦃text : List Char⦄, Closes more → Spaced (value ++ more) text →
    ∃ rest, Spaced more rest ∧ ∀ outer, run outer .value text = run outer .nextItem rest

theorem exists_run_items {items : List (List Token)}
    (values : ∀ item ∈ items, Begins item ∧ PassesOver item) {first : Bool}
    (spaced : Spaced (itemsTokens first items ++ more) text) :
    ∃ rest, Spaced more rest ∧ ∀ outer,
      run (.array :: outer) (turn first) text = run outer .nextItem rest := by
  induction items generalizing first text with
  | nil => exact run_last spaced
  | cons item items inductionHypothesis =>
      obtain ⟨⟨begins, passes⟩, others⟩ := List.forall_mem_cons.mp values
      rw [itemsTokens, List.append_assoc, List.append_assoc] at spaced
      obtain ⟨start, spacedItem, lead⟩ := run_lead spaced (begins.append _)
      obtain ⟨behind, spacedItems, passed⟩ := passes (closes_itemsTokens items more) spacedItem
      obtain ⟨rest, spacedMore, passedItems⟩ := inductionHypothesis others spacedItems
      refine ⟨rest, spacedMore, fun outer => ?_⟩
      rw [lead, run_item_array, passed]
      exact passedItems outer

theorem exists_key {inside : List Char} (isInside : IsInside inside)
    (spaced : Spaced (stringToken inside :: [':'] :: more) text) :
    ∃ rest, Spaced more rest ∧ key text = .ok rest := by
  obtain ⟨behind, spacedColon, seen⟩ := spaced.exists_skipBlanks rfl
  obtain ⟨rest, others, colon⟩ := spacedColon.readColon_eq
  refine ⟨rest, others, ?_⟩
  rw [key, seen, List.append_assoc, List.singleton_append]
  simp [string_append isInside, colon]

theorem exists_run_members {members : List SpelledMember}
    (keys : ∀ member ∈ members, IsInside member.inside)
    (values : ∀ member ∈ members, PassesOver member.value) {first : Bool}
    (spaced : Spaced (membersTokens first members ++ more) text) :
    ∃ rest, Spaced more rest ∧ ∀ outer,
      run (.object :: outer) (turn first) text = run outer .nextItem rest := by
  induction members generalizing first text with
  | nil => exact run_last spaced
  | cons member members inductionHypothesis =>
      obtain ⟨isInside, otherKeys⟩ := List.forall_mem_cons.mp keys
      obtain ⟨passes, otherValues⟩ := List.forall_mem_cons.mp values
      simp only [membersTokens, List.append_assoc, List.cons_append] at spaced
      obtain ⟨start, spacedKey, lead⟩ := run_lead spaced ⟨_, _, _, rfl, rfl⟩
      obtain ⟨value, spacedValue, passedKey⟩ := exists_key isInside spacedKey
      obtain ⟨behind, spacedMembers, passed⟩ :=
        passes (closes_membersTokens members more) spacedValue
      obtain ⟨rest, spacedMore, passedMembers⟩ :=
        inductionHypothesis otherKeys otherValues spacedMembers
      refine ⟨rest, spacedMore, fun outer => ?_⟩
      rw [lead, run_item_object passedKey, passed]
      exact passedMembers outer

/-- The skimmer passes over every value, nested to any depth. -/
theorem passesOver_of_isValue {value : List Token} (isValue : IsValue value) :
    PassesOver value := by
  induction isValue with
  | atom isAtom =>
      intro more text closes spaced
      obtain ⟨rest, others, passed⟩ := exists_head_atom isAtom closes spaced
      exact ⟨rest, others, fun outer => run_of_scalar passed⟩
  | array values inductionHypothesis =>
      intro more text _ spaced
      obtain ⟨behind, items, seen⟩ := spaced.exists_skipBlanks rfl
      have opened : head text = .ok (.opened .array behind) := by rw [head, seen]; rfl
      obtain ⟨rest, others, passed⟩ := exists_run_items
        (fun item listed => ⟨(values item listed).begins, inductionHypothesis item listed⟩) items
      refine ⟨rest, others, fun outer => ?_⟩
      rw [run_of_opened opened]
      exact passed outer
  | object keys _ inductionHypothesis =>
      intro more text _ spaced
      obtain ⟨behind, members, seen⟩ := spaced.exists_skipBlanks rfl
      have opened : head text = .ok (.opened .object behind) := by rw [head, seen]; rfl
      obtain ⟨rest, others, passed⟩ := exists_run_members keys inductionHypothesis members
      refine ⟨rest, others, fun outer => ?_⟩
      rw [run_of_opened opened]
      exact passed outer

end Skim

end MotionSteps.Json
