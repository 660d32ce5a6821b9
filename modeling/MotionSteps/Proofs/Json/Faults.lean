import MotionSteps.Json.Reader.Value

/-!
# Faults of free values

A reader of free values has no wishes of its own. Whatever it refuses, it refuses for the spelling
of the text, and the wording of such a cause is fixed. It quotes no part of the text.
-/

namespace MotionSteps.Json

variable {α β σ : Type}

/-- A cause that is about the spelling of a text, and not about what a record asks for. -/
def Cause.IsSpelling : Cause → Prop
  | .missingField _ | .repeatedField _ | .tooFewItems .. | .wrongKind .. | .integerTooLarge _ =>
      False
  | _ => True

/-- A result that is refused for the spelling of the text only. -/
def Spelled (result : Except Fault α) : Prop :=
  ∀ fault, result = .error fault → fault.cause.IsSpelling

namespace Spelled

@[simp] theorem ok (value : α) : Spelled (.ok value : Except Fault α) := nofun

@[simp] theorem error {fault : Fault} :
    Spelled (.error fault : Except Fault α) ↔ fault.cause.IsSpelling := by
  simp [Spelled]

theorem map {result : Except Fault α} (spelled : Spelled result) (f : α → β) :
    Spelled (result.map f) := by
  cases result with
  | error fault => exact error.mpr (error.mp spelled)
  | ok value => exact ok (f value)

theorem bind {result : Except Fault α} {next : α → Except Fault β} (spelled : Spelled result)
    (further : ∀ value, Spelled (next value)) : Spelled (result >>= next) := by
  cases result with
  | error fault => exact error.mpr (error.mp spelled)
  | ok value => exact further value

end Spelled

/-! ## Scalars -/

theorem spelled_fourHex (text : List Char) : Spelled (Escape.fourHex text) := by
  have refused : (Escape.notHex text).cause.IsSpelling := by
    unfold Escape.notHex
    split <;> trivial
  unfold Escape.fourHex
  split
  · split <;> simp [refused]
  · simp [refused]

theorem spelled_secondHalf (first : Nat) (text : List Char) :
    Spelled (Escape.secondHalf first text) := by
  unfold Escape.secondHalf
  split
  · exact Spelled.error.mpr trivial
  · split
    · exact Spelled.error.mpr trivial
    · next digits =>
        split
        · next fault refused => exact Spelled.error.mpr (spelled_fourHex digits fault refused)
        · split <;> simp [Fault.before, Cause.IsSpelling]
    · exact Spelled.error.mpr trivial
  · exact Spelled.error.mpr trivial

theorem spelled_escape (text : List Char) : Spelled (Escape.read text) := by
  unfold Escape.read
  split
  · exact Spelled.error.mpr trivial
  · split
    · simp
    · split
      · next rest _ _ _ =>
          unfold Escape.unicode
          split
          · next fault refused => exact Spelled.error.mpr (spelled_fourHex rest fault refused)
          · split
            · simp
            · split
              · exact Spelled.error.mpr trivial
              · exact spelled_secondHalf _ _
      · exact Spelled.error.mpr trivial

theorem spelled_readString (reversed text : List Char) : Spelled (readString reversed text) := by
  fun_induction readString reversed text with
  | case1 => exact Spelled.error.mpr trivial
  | case2 => simp
  | case3 reversed c rest _ _ fault refused =>
      exact Spelled.error.mpr (spelled_escape rest fault refused)
  | case4 reversed c rest _ _ named behind _ _ inductionHypothesis => exact inductionHypothesis
  | case5 => exact Spelled.error.mpr trivial
  | case6 reversed c rest _ _ _ inductionHypothesis => exact inductionHypothesis

theorem spelled_scanDigits (text : List Char) : Spelled (Numeral.scanDigits .endInValue text) := by
  unfold Numeral.scanDigits
  split
  · exact Spelled.error.mpr trivial
  · split
    · simp
    · exact Spelled.error.mpr trivial

theorem spelled_scan (text : List Char) : Spelled (Numeral.scan .endInValue text) := by
  unfold Numeral.scan
  refine Spelled.bind ?whole fun (whole, behind) =>
    Spelled.bind ?fraction fun (fraction, behind) =>
      Spelled.bind ?exponent fun (exponent, behind) => Spelled.ok _
  case whole =>
    unfold Numeral.scanWhole
    split
    · split
      · exact Spelled.error.mpr trivial
      · simp
    · exact spelled_scanDigits _
  case fraction =>
    unfold Numeral.scanFraction
    split
    · split
      · simp
      · next fault refused => exact Spelled.error.mpr (spelled_scanDigits _ fault refused)
    · simp
  case exponent =>
    unfold Numeral.scanExponent
    split
    · split
      · dsimp only
        split
        · simp
        · next fault refused => exact Spelled.error.mpr (spelled_scanDigits _ fault refused)
      · simp
    · simp

theorem spelled_numeral (text : List Char) : Spelled (Numeral.read text) := by
  unfold Numeral.read
  split
  · next fault refused => exact Spelled.error.mpr (spelled_scan text fault refused)
  · split
    · simp
    · exact Spelled.error.mpr trivial

theorem spelled_literal (expected text : List Char) : Spelled (literal expected text) := by
  fun_induction literal expected text with
  | case1 => simp
  | case2 => exact Spelled.error.mpr trivial
  | case3 letter letters c rest _ inductionHypothesis => exact inductionHypothesis
  | case4 => exact Spelled.error.mpr trivial

theorem spelled_head (text : List Char) : Spelled (Head.read text) := by
  unfold Head.read
  split
  · exact Spelled.error.mpr trivial
  · unfold Head.ofChar
    repeat' split
    · exact (spelled_readString _ _).map _
    · simp
    · simp
    · exact (spelled_literal _ _).map _
    · exact (spelled_literal _ _).map _
    · exact (spelled_literal _ _).map _
    · exact (spelled_numeral _).map _
    · exact Spelled.error.mpr trivial

/-! ## Containers -/

theorem spelled_nextItem (first : Bool) (text : List Char) : Spelled (nextItem first text) := by
  unfold nextItem
  repeat' split
  all_goals first | exact Spelled.ok _ | exact Spelled.error.mpr trivial

theorem spelled_readItems {item : Reader α} (spelled : ∀ text, Spelled (item.run text))
    (first : Bool) (reversed : List α) (text : List Char) :
    Spelled (readItems item first reversed text) := by
  fun_induction readItems item first reversed text with
  | case1 first reversed text fault refused =>
      exact Spelled.error.mpr (spelled_nextItem first text fault refused)
  | case2 => simp
  | case3 first reversed text start _ fault refused =>
      exact Spelled.error.mpr (spelled start fault refused)
  | case4 first reversed text start _ value rest _ _ inductionHypothesis =>
      exact inductionHypothesis

theorem spelled_readKey (c : Char) (rest : List Char) : Spelled (readKey c rest) := by
  unfold readKey
  split
  · split
    · next fault refused => exact Spelled.error.mpr (spelled_readString [] rest fault refused)
    · simp
  · exact Spelled.error.mpr trivial

theorem spelled_nextKey (first : Bool) (text : List Char) : Spelled (nextKey first text) := by
  unfold nextKey
  repeat' split
  all_goals
    first
      | exact Spelled.ok _
      | exact spelled_readKey _ _
      | exact Spelled.error.mpr trivial

theorem spelled_readColon (text : List Char) : Spelled (readColon text) := by
  unfold readColon
  repeat' split
  all_goals first | exact Spelled.ok _ | exact Spelled.error.mpr trivial

/-- Members that no key is refused to are read up to a fault of their spelling. -/
theorem spelled_readMembers {member : σ → String → Reader σ}
    (spelled : ∀ state key text, Spelled ((member state key).run text)) (first : Bool) (state : σ)
    (text : List Char) :
    Spelled (readMembers (fun state key => .ok (member state key)) first state text) := by
  fun_induction readMembers (fun state key => .ok (member state key)) first state text with
  | case1 first state text fault refused =>
      exact Spelled.error.mpr (spelled_nextKey first text fault refused)
  | case2 => simp
  | case3 first state text key behind _ cause refused => cases refused
  | case4 first state text key behind _ value _ fault refused =>
      exact Spelled.error.mpr (spelled_readColon behind fault refused)
  | case5 first state text key behind _ value accepted start _ fault refused =>
      cases accepted
      exact Spelled.error.mpr (spelled state key start fault refused)
  | case6 first state text key behind _ value _ start _ next rest _ _ inductionHypothesis =>
      exact inductionHypothesis

/-! ## Values -/

theorem Spelled.map_run {reader : Reader α} (spelled : ∀ text, Spelled (reader.run text))
    (f : α → β) (text : List Char) : Spelled ((reader.map f).run text) := by
  rw [Reader.map]
  dsimp only
  split
  · simp
  · next fault refused => exact Spelled.error.mpr (spelled text fault refused)

/-- A value is read by the readers of what it contains. -/
theorem spelled_readValue {nested : Option (Reader Json)}
    (spelled : ∀ reader, nested = some reader → ∀ text, Spelled (reader.run text))
    (text : List Char) : Spelled (readValue nested text) := by
  unfold readValue
  split
  · next fault refused => exact Spelled.error.mpr (spelled_head text fault refused)
  · simp
  · simp
  · simp
  · simp
  · split
    · exact Spelled.error.mpr trivial
    · next item =>
        split
        · next fault refused =>
            exact Spelled.error.mpr
              (spelled_readItems (spelled item rfl) true [] _ fault refused)
        · simp
  · split
    · exact Spelled.error.mpr trivial
    · next value =>
        dsimp only
        split
        · next fault refused =>
            exact Spelled.error.mpr
              (spelled_readMembers (fun _ _ => Spelled.map_run (spelled value rfl) _) true [] _
                fault refused)
        · simp

theorem spelled_value (depth : Nat) (text : List Char) :
    Spelled ((Reader.value depth).run text) := by
  induction depth generalizing text with
  | zero =>
      change Spelled (readValue none text)
      refine spelled_readValue (fun reader same => ?_) text
      cases same
  | succ depth inductionHypothesis =>
      change Spelled (readValue (some (Reader.value depth)) text)
      refine spelled_readValue (fun reader same => ?_) text
      obtain rfl := Option.some.inj same
      exact inductionHypothesis

/-- A text that is no value is refused for its spelling. -/
theorem isSpelling_of_parse {text : String} {failure : ReadError}
    (refused : parse text = .error failure) : failure.cause.IsSpelling := by
  rw [parse, Reader.parse] at refused
  split at refused
  · next fault ran =>
      rw [← Except.error.inj refused]
      exact spelled_value maxDepth text.toList fault ran
  · split at refused
    · cases refused
    · rw [← Except.error.inj refused]
      trivial

end MotionSteps.Json
