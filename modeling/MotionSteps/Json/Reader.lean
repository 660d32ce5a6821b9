import MotionSteps.Json.Fault

/-!
# Readers

A reader takes one value off the front of a text, the blanks before it included,
and says what is left. It always takes at least one character: the proof of that
travels with it, so that a loop over the values of a list or of an object ends for
every reader of its items.
-/

namespace MotionSteps.Json

/-- What a reader does to a text, with the proof that it gets ahead. -/
structure Reader (α : Type) where
  run : List Char → Except Fault (α × List Char)
  shorter : ∀ {text : List Char} {value : α} {rest : List Char},
    run text = .ok (value, rest) → rest.length < text.length

/-- Whether a character may stand between the tokens of a JSON text. -/
def isSeparator (c : Char) : Bool :=
  c == ' ' || c == '\n' || c == '\t' || c == '\r'

/-- A text without the separators in front. -/
def skipBlanks (text : List Char) : List Char :=
  text.dropWhile isSeparator

theorem length_skipBlanks_le (text : List Char) : (skipBlanks text).length ≤ text.length :=
  (List.dropWhile_suffix isSeparator).length_le

/-- What stands behind separators is as long as the text at most, and shorter by
the character that was seen. -/
theorem length_lt_of_skipBlanks_eq_cons {text rest : List Char} {c : Char}
    (seen : skipBlanks text = c :: rest) : rest.length < text.length := by
  have bound := length_skipBlanks_le text
  rw [seen] at bound
  simp only [List.length_cons] at bound
  omega

/-- A result that a function was applied to comes from a result. -/
theorem exists_of_map_eq_ok {ε α β : Type} {result : Except ε α} {f : α → β} {value : β}
    (mapped : result.map f = .ok value) : ∃ inner, result = .ok inner ∧ f inner = value := by
  cases result with
  | error fault => cases mapped
  | ok inner => exact ⟨inner, rfl, Except.ok.inj mapped⟩

namespace Reader

variable {α β : Type}

/-- Apply a function to what a reader yields. -/
def map (f : α → β) (reader : Reader α) : Reader β where
  run text :=
    match reader.run text with
    | .ok (value, rest) => .ok (f value, rest)
    | .error fault => .error fault
  shorter := by
    intro text value rest equation
    split at equation
    · next inner innerRest ran =>
        cases equation
        exact reader.shorter ran
    · cases equation

/-- Read a whole text: the value, and behind it nothing but separators. -/
def parse (reader : Reader α) (text : String) : Except ReadError α :=
  let chars := text.toList
  match reader.run chars with
  | .error fault => .error (fault.locate chars)
  | .ok (value, rest) =>
      match skipBlanks rest with
      | [] => .ok value
      | behind => .error ((Fault.on .trailingCharacters behind).locate chars)

end Reader

end MotionSteps.Json
