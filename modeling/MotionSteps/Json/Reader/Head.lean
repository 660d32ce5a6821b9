import MotionSteps.Json.Reader.Numeral
import MotionSteps.Json.Reader.String

/-!
# The beginning of a value

Every reader starts with the head of its value, a whole scalar or an opening
bracket, and decides by it. A field that asks for another kind of value therefore
says what it found, and a scalar that is malformed is reported as such whatever the
field asks for.
-/

namespace MotionSteps.Json

/-- The letters that must follow, in order. -/
def literal : (expected : List Char) → List Char → Except Fault (List Char)
  | [], text => .ok text
  | _ :: _, [] => .error (.before .endInValue [])
  | letter :: letters, c :: rest =>
      if c == letter then literal letters rest else .error (.on .misspelledLiteral (c :: rest))

theorem literal_le {expected text rest : List Char} (ran : literal expected text = .ok rest) :
    rest.length ≤ text.length := by
  fun_induction literal expected text with
  | case1 =>
      cases ran
      exact Nat.le_refl _
  | case2 => cases ran
  | case3 letter letters c behind _ inductionHypothesis =>
      have := inductionHypothesis ran
      simp only [List.length_cons]
      omega
  | case4 => cases ran

namespace Head

/-- The head that begins with a character, and what follows it. -/
def ofChar (c : Char) (rest : List Char) : Except Fault (Head × List Char) :=
  if c == '"' then (readString [] rest).map fun (found, behind) => (.string found, behind)
  else if c == '[' then .ok (.array, rest)
  else if c == '{' then .ok (.object, rest)
  else if c == 'n' then (literal ['u', 'l', 'l'] rest).map fun behind => (.null, behind)
  else if c == 't' then (literal ['r', 'u', 'e'] rest).map fun behind => (.bool true, behind)
  else if c == 'f' then
    (literal ['a', 'l', 's', 'e'] rest).map fun behind => (.bool false, behind)
  else if c == '-' || c.isDigit then
    (Numeral.read (c :: rest)).map fun (found, behind) => (.number found, behind)
  else .error (.on .noValue (c :: rest))

/-- Read the head of the next value. -/
def read (text : List Char) : Except Fault (Head × List Char) :=
  match skipBlanks text with
  | [] => .error (.before .endInValue [])
  | c :: rest => ofChar c rest

theorem ofChar_shorter {c : Char} {text rest : List Char} {head : Head}
    (ran : ofChar c text = .ok (head, rest)) : rest.length < (c :: text).length := by
  simp only [List.length_cons]
  unfold ofChar at ran
  split at ran
  · obtain ⟨inner, ranString, equation⟩ := exists_of_map_eq_ok ran
    cases equation
    have := readString_shorter ranString
    omega
  split at ran
  · cases ran
    omega
  split at ran
  · cases ran
    omega
  split at ran
  · obtain ⟨inner, ranLiteral, equation⟩ := exists_of_map_eq_ok ran
    cases equation
    have := literal_le ranLiteral
    omega
  split at ran
  · obtain ⟨inner, ranLiteral, equation⟩ := exists_of_map_eq_ok ran
    cases equation
    have := literal_le ranLiteral
    omega
  split at ran
  · obtain ⟨inner, ranLiteral, equation⟩ := exists_of_map_eq_ok ran
    cases equation
    have := literal_le ranLiteral
    omega
  split at ran
  · obtain ⟨inner, ranNumber, equation⟩ := exists_of_map_eq_ok ran
    cases equation
    have := Numeral.read_shorter ranNumber
    simp only [List.length_cons] at this
    omega
  · cases ran

theorem read_shorter {text rest : List Char} {head : Head}
    (ran : read text = .ok (head, rest)) : rest.length < text.length := by
  unfold read at ran
  split at ran
  · cases ran
  · next c behind seen =>
      have bound := length_skipBlanks_le text
      rw [seen] at bound
      have := ofChar_shorter ran
      omega

end Head

/-- The fault of a value of the wrong kind. A scalar counts as read, a bracket does
not. -/
def wrongKind (expected : Expectation) (head : Head) (rest : List Char) : Fault :=
  match head with
  | .array | .object => ⟨.wrongKind head expected, byteCount rest + 1⟩
  | _ => .before (.wrongKind head expected) rest

namespace Reader

variable {α : Type}

/-- A reader of scalars: `accept` says what a head stands for, or why it is refused. -/
def ofHead (accept : Head → List Char → Except Fault α) : Reader α where
  run text :=
    match Head.read text with
    | .error fault => .error fault
    | .ok (head, rest) =>
        match accept head rest with
        | .error fault => .error fault
        | .ok value => .ok (value, rest)
  shorter := by
    intro text value rest equation
    split at equation
    · cases equation
    · next head behind ran =>
        split at equation
        · cases equation
        · cases equation
          exact Head.read_shorter ran

/-- A string. -/
def string : Reader String :=
  ofHead fun head rest =>
    match head with
    | .string value => .ok value
    | _ => .error (wrongKind .string head rest)

/-- A string, or null for none. -/
def stringOrNull : Reader (Option String) :=
  ofHead fun head rest =>
    match head with
    | .null => .ok none
    | .string value => .ok (some value)
    | _ => .error (wrongKind .string head rest)

/-- A number as a binary64 number. -/
def float : Reader Float :=
  ofHead fun head rest =>
    match head with
    | .number value => .ok value.toFloat
    | _ => .error (wrongKind .number head rest)

/-- A number that was written as an integer and fits a signed 64-bit integer. -/
def integer : Reader Int :=
  ofHead fun head rest =>
    match head with
    | .number (.integer value) =>
        if value ≤ MotionSteps.Number.integerMax then .ok value
        else .error (.before (.integerTooLarge value) rest)
    | _ => .error (wrongKind .integer head rest)

end Reader

end MotionSteps.Json
