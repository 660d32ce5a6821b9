import MotionSteps.Json.Reader.Container

/-!
# Skimming values

The value under a key that a record does not know is passed over. It must be well
formed, but it may be nested to any depth, its numbers may be of any size and its
escapes may name halves of surrogate pairs, since nothing is made of them. The
containers still open are kept in a list, so the depth costs nothing.
-/

namespace MotionSteps.Json.Skim

/-- Pass over the digits behind `\u`, or a letter, of an escape. -/
def escape (text : List Char) : Except Fault (List Char) :=
  match text with
  | [] => .error (.before .endInString [])
  | c :: rest =>
      if (Escape.letter? c).isSome then .ok rest
      else if c == 'u' then
        match Escape.fourHex rest with
        | .error fault => .error fault
        | .ok (_, behind) => .ok behind
      else .error (.on .unknownEscape text)

theorem escape_shorter {text rest : List Char} (ran : escape text = .ok rest) :
    rest.length < text.length := by
  unfold escape at ran
  split at ran
  · cases ran
  · split at ran
    · cases ran
      simp
    · split at ran
      · split at ran
        · cases ran
        · next hex =>
            cases ran
            have := Escape.fourHex_shorter hex
            simp only [List.length_cons]
            omega
      · cases ran

/-- Pass over a string to the quote that closes it. -/
def string (text : List Char) : Except Fault (List Char) :=
  match text with
  | [] => .error (.before .endInString [])
  | c :: rest =>
      if c == '"' then .ok rest
      else if c == '\\' then
        match named : escape rest with
        | .error fault => .error fault
        | .ok behind =>
            have := escape_shorter named
            string behind
      else if c.toNat < 0x20 then .error (.before .rawControl text)
      else string rest
termination_by text.length
decreasing_by
  · simp only [List.length_cons]
    omega
  · simp

theorem string_shorter {text rest : List Char} (ran : string text = .ok rest) :
    rest.length < text.length := by
  fun_induction string text with
  | case1 => cases ran
  | case2 =>
      cases ran
      simp
  | case3 => cases ran
  | case4 c behind _ _ further named shorter inductionHypothesis =>
      have := inductionHypothesis ran
      simp only [List.length_cons]
      omega
  | case5 => cases ran
  | case6 c behind _ _ _ inductionHypothesis =>
      have := inductionHypothesis ran
      simp only [List.length_cons]
      omega

/-- A container that is still open. -/
inductive Enclosure where
  | array
  | object
  deriving DecidableEq

namespace Enclosure

/-- The bracket that closes a container. -/
def closer : Enclosure → Char
  | .array => ']'
  | .object => '}'

/-- The fault of a text that ends inside the container. -/
def atEnd : Enclosure → Fault
  | .array => .before .endInArray []
  | .object => .before .endInObject []

/-- The cause when neither a comma nor the bracket follows an item. -/
def noComma : Enclosure → Cause
  | .array => .noCommaInArray
  | .object => .noCommaInObject

end Enclosure

/-- A scalar or an opening bracket was passed over. -/
inductive Passed where
  | scalar (rest : List Char)
  | opened (enclosure : Enclosure) (rest : List Char)

/-- Pass over the head of the next value. -/
def head (text : List Char) : Except Fault Passed :=
  match skipBlanks text with
  | [] => .error (.before .endInValue [])
  | c :: rest =>
      if c == '"' then (string rest).map .scalar
      else if c == '[' then .ok (.opened .array rest)
      else if c == '{' then .ok (.opened .object rest)
      else if c == 'n' then (literal ['u', 'l', 'l'] rest).map .scalar
      else if c == 't' then (literal ['r', 'u', 'e'] rest).map .scalar
      else if c == 'f' then (literal ['a', 'l', 's', 'e'] rest).map .scalar
      else if c == '-' || c.isDigit then
        (Numeral.scan .malformedNumber (c :: rest)).map fun (_, behind) => .scalar behind
      else .error (.on .noValue (c :: rest))

/-- The text behind what was passed over. -/
def Passed.rest : Passed → List Char
  | .scalar rest => rest
  | .opened _ rest => rest

theorem head_shorter {text : List Char} {passed : Passed} (ran : head text = .ok passed) :
    passed.rest.length < text.length := by
  unfold head at ran
  split at ran
  · cases ran
  next c behind seen =>
  have bound := length_skipBlanks_le text
  rw [seen] at bound
  simp only [List.length_cons] at bound
  split at ran
  · obtain ⟨inner, ranString, rfl⟩ := exists_of_map_eq_ok ran
    have := string_shorter ranString
    simp only [Passed.rest]
    omega
  split at ran
  · cases ran
    simp only [Passed.rest]
    omega
  split at ran
  · cases ran
    simp only [Passed.rest]
    omega
  split at ran
  · obtain ⟨inner, ranLiteral, rfl⟩ := exists_of_map_eq_ok ran
    have := literal_le ranLiteral
    simp only [Passed.rest]
    omega
  split at ran
  · obtain ⟨inner, ranLiteral, rfl⟩ := exists_of_map_eq_ok ran
    have := literal_le ranLiteral
    simp only [Passed.rest]
    omega
  split at ran
  · obtain ⟨inner, ranLiteral, rfl⟩ := exists_of_map_eq_ok ran
    have := literal_le ranLiteral
    simp only [Passed.rest]
    omega
  split at ran
  · obtain ⟨⟨numeral, further⟩, scanned, rfl⟩ := exists_of_map_eq_ok ran
    have := Numeral.scan_shorter scanned
    simp only [List.length_cons] at this
    simp only [Passed.rest]
    omega
  · cases ran

/-- Pass over the key and the colon in front of the next value of an object. -/
def key (text : List Char) : Except Fault (List Char) :=
  match skipBlanks text with
  | [] => .error (.before .endInObject [])
  | c :: rest =>
      if c == '"' then
        match string rest with
        | .error fault => .error fault
        | .ok behind => readColon behind
      else .error (.on .keyNotString (c :: rest))

theorem key_shorter {text rest : List Char} (ran : key text = .ok rest) :
    rest.length < text.length := by
  unfold key at ran
  split at ran
  · cases ran
  · next seen =>
      split at ran
      · split at ran
        · cases ran
        · next ranString =>
            have := length_lt_of_skipBlanks_eq_cons seen
            have := string_shorter ranString
            have := readColon_shorter ran
            omega
      · cases ran

/-- What the text must hold next: a value, another item of the innermost container,
or the first item or the end of a container that was just opened, or a comma or the
end behind an item. -/
inductive Awaiting where
  | value
  | item
  | firstItem
  | nextItem
  deriving DecidableEq

/-- The states that take nothing off the text come in this order. -/
def Awaiting.rank : Awaiting → Nat
  | .value => 0
  | .item => 1
  | .firstItem => 2
  | .nextItem => 3

/-- Pass over the rest of a value whose open containers are given, innermost first. -/
def run (enclosures : List Enclosure) (awaiting : Awaiting) (text : List Char) :
    Except Fault (List Char) :=
  match awaiting, enclosures with
  | .value, _ =>
      match passed : head text with
      | .error fault => .error fault
      | .ok (.scalar rest) =>
          have : rest.length < text.length := head_shorter passed
          run enclosures .nextItem rest
      | .ok (.opened enclosure rest) =>
          have : rest.length < text.length := head_shorter passed
          run (enclosure :: enclosures) .firstItem rest
  | _, [] => .ok text
  | .item, .array :: _ => run enclosures .value text
  | .item, .object :: _ =>
      match passed : key text with
      | .error fault => .error fault
      | .ok rest =>
          have := key_shorter passed
          run enclosures .value rest
  | .firstItem, enclosure :: outer =>
      match seen : skipBlanks text with
      | [] => .error enclosure.atEnd
      | c :: rest =>
          have := length_lt_of_skipBlanks_eq_cons seen
          if c == enclosure.closer then run outer .nextItem rest
          else run enclosures .item text
  | .nextItem, enclosure :: outer =>
      match seen : skipBlanks text with
      | [] => .error enclosure.atEnd
      | c :: rest =>
          have := length_lt_of_skipBlanks_eq_cons seen
          if c == ',' then run enclosures .item rest
          else if c == enclosure.closer then run outer .nextItem rest
          else .error (.on enclosure.noComma (c :: rest))
termination_by 4 * text.length + awaiting.rank
decreasing_by all_goals (simp only [Awaiting.rank]; omega)

/-- Only behind a value is nothing taken off the text. -/
theorem run_le {enclosures : List Enclosure} {awaiting : Awaiting} {text rest : List Char}
    (ran : run enclosures awaiting text = .ok rest) : rest.length ≤ text.length := by
  fun_induction run enclosures awaiting text with
  | case1 => cases ran
  | case2 enclosures text behind passed shorter inductionHypothesis =>
      have := inductionHypothesis ran
      omega
  | case3 enclosures text enclosure behind passed shorter inductionHypothesis =>
      have := inductionHypothesis ran
      omega
  | case4 =>
      cases ran
      exact Nat.le_refl _
  | case5 text outer inductionHypothesis => exact inductionHypothesis ran
  | case6 => cases ran
  | case7 text outer behind passed shorter inductionHypothesis =>
      have := inductionHypothesis ran
      omega
  | case8 => cases ran
  | case9 text enclosure outer c behind seen shorter closes inductionHypothesis =>
      have := inductionHypothesis ran
      omega
  | case10 text enclosure outer c behind seen shorter closes inductionHypothesis =>
      exact inductionHypothesis ran
  | case11 => cases ran
  | case12 text enclosure outer c behind seen shorter comma inductionHypothesis =>
      have := inductionHypothesis ran
      omega
  | case13 text enclosure outer c behind seen shorter comma closes inductionHypothesis =>
      have := inductionHypothesis ran
      omega
  | case14 => cases ran

theorem run_value_shorter {text rest : List Char} (ran : run [] .value text = .ok rest) :
    rest.length < text.length := by
  rw [run] at ran
  split at ran
  · cases ran
  · next behind passed =>
      have : behind.length < text.length := head_shorter passed
      have := run_le ran
      omega
  · next enclosure behind passed =>
      have : behind.length < text.length := head_shorter passed
      have := run_le ran
      omega

end MotionSteps.Json.Skim

namespace MotionSteps.Json.Reader

/-- A value that nothing is made of. -/
def skim : Reader Unit where
  run text :=
    match Skim.run [] .value text with
    | .error fault => .error fault
    | .ok rest => .ok ((), rest)
  shorter := by
    intro text value rest equation
    split at equation
    · cases equation
    · next ran =>
        cases equation
        exact Skim.run_value_shorter ran

end MotionSteps.Json.Reader
