import Mathlib.Data.List.DropRight
import MotionSteps.Json.Reader.Record
import MotionSteps.Json.Reader.Value
import MotionSteps.Proofs.Json.Skimming

/-!
# What readers take, the skimmer passes over

Every reader that takes a value off a text takes what the skimmer passes over there, so it stops
at the same place, whatever it makes of the value. The skimmer passes exactly over a value of the
grammar. So a reader that has succeeded in front of a value stands right behind it.
-/

namespace MotionSteps.Json

variable {α β σ ρ : Type}

/-! ## Strings and numerals -/

namespace Skim

variable {text rest : List Char}

/-- The halves of a pair are passed over one after the other. -/
theorem string_of_secondHalf {first : Nat} {named : Char}
    (ran : Escape.secondHalf first text = .ok (named, rest)) : string text = string rest := by
  unfold Escape.secondHalf at ran
  split at ran
  · cases ran
  · split at ran
    · cases ran
    · split at ran
      · cases ran
      · next hex =>
          split at ran
          · obtain ⟨-, rfl⟩ := Prod.mk.inj (Except.ok.inj ran)
            exact string_escape (escape_unicode hex)
          · cases ran
    · cases ran
  · cases ran

theorem string_of_escape {named : Char} (ran : Escape.read text = .ok (named, rest)) :
    string ('\\' :: text) = string rest := by
  unfold Escape.read at ran
  split at ran
  · cases ran
  · next c tail =>
      split at ran
      · next letter =>
          cases ran
          exact string_escape (escape_letter letter)
      · split at ran
        · next isUnicode =>
            obtain rfl := eq_of_beq isUnicode
            unfold Escape.unicode at ran
            split at ran
            · cases ran
            · next hex =>
                rw [string_escape (escape_unicode hex)]
                split at ran
                · obtain ⟨-, rfl⟩ := Prod.mk.inj (Except.ok.inj ran)
                  rfl
                · split at ran
                  · cases ran
                  · exact string_of_secondHalf ran
        · cases ran

/-- A string that is read is passed over. -/
theorem string_of_readString {reversed : List Char} {found : String}
    (ran : readString reversed text = .ok (found, rest)) : string text = .ok rest := by
  fun_induction readString reversed text with
  | case1 => cases ran
  | case2 reversed c tail quote =>
      cases ran
      rw [eq_of_beq quote, string_quote]
  | case3 => cases ran
  | case4 reversed c tail _ backslash named behind escape _ inductionHypothesis =>
      rw [eq_of_beq backslash, string_of_escape escape, inductionHypothesis ran]
  | case5 => cases ran
  | case6 reversed c tail noQuote noBackslash noControl inductionHypothesis =>
      rw [string_plain (by simpa using noQuote) (by simpa using noBackslash) noControl,
        inductionHypothesis ran]

end Skim

namespace Numeral

variable {atEnd : Cause} {text rest : List Char}

theorem scanDigits_ok {digits : List Char} (scanned : scanDigits atEnd text = .ok (digits, rest))
    (other : Cause) : scanDigits other text = .ok (digits, rest) := by
  cases text with
  | nil => cases scanned
  | cons c text => exact scanned

theorem scanWhole_ok {digits : List Char} (scanned : scanWhole atEnd text = .ok (digits, rest))
    (other : Cause) : scanWhole other text = .ok (digits, rest) := by
  unfold scanWhole at scanned
  split at scanned
  · exact scanned
  · next noPair =>
      unfold scanWhole
      split
      · exact absurd rfl (noPair _ _)
      · exact scanDigits_ok scanned other

theorem scanFraction_ok {digits : Option (List Char)}
    (scanned : scanFraction atEnd text = .ok (digits, rest)) (other : Cause) :
    scanFraction other text = .ok (digits, rest) := by
  unfold scanFraction at scanned
  split at scanned
  · split at scanned
    · next ran =>
        rw [scanFraction, scanDigits_ok ran other]
        exact scanned
    · cases scanned
  · next noPoint =>
      unfold scanFraction
      split
      · exact absurd rfl (noPoint _)
      · exact scanned

theorem scanExponent_ok {exponent : Option (Bool × List Char)}
    (scanned : scanExponent atEnd text = .ok (exponent, rest)) (other : Cause) :
    scanExponent other text = .ok (exponent, rest) := by
  cases text with
  | nil => exact scanned
  | cons mark text =>
      unfold scanExponent at scanned ⊢
      dsimp only at scanned ⊢
      split at scanned
      · next marked =>
          rw [if_pos marked]
          split at scanned
          · next ran =>
              rw [scanDigits_ok ran other]
              exact scanned
          · cases scanned
      · next unmarked =>
          rw [if_neg unmarked]
          exact scanned

/-- What is scanned does not depend on the fault that the end of the text would be. -/
theorem scan_ok {numeral : Numeral} (scanned : scan atEnd text = .ok (numeral, rest))
    (other : Cause) : scan other text = .ok (numeral, rest) := by
  unfold scan at scanned ⊢
  simp only [bind, Except.bind, pure, Except.pure] at scanned ⊢
  split at scanned
  · cases scanned
  · next whole =>
      rw [scanWhole_ok whole other]
      split at scanned
      · cases scanned
      · next fraction =>
          dsimp only
          rw [scanFraction_ok fraction other]
          split at scanned
          · cases scanned
          · next exponent =>
              dsimp only
              rw [scanExponent_ok exponent other]
              exact scanned

theorem exists_scan_of_read {number : Number} (ran : read text = .ok (number, rest))
    (other : Cause) : ∃ numeral, scan other text = .ok (numeral, rest) := by
  unfold read at ran
  split at ran
  · cases ran
  · next numeral behind scanned =>
      split at ran
      · cases ran
        exact ⟨numeral, scan_ok scanned other⟩
      · cases ran

end Numeral

/-! ## Heads -/

namespace Skim

variable {text rest behind : List Char} {outer : List Enclosure}

/-- What is passed over when a head is read. -/
def passedOf (head : Head) (rest : List Char) : Passed :=
  match head with
  | .array => .opened .array rest
  | .object => .opened .object rest
  | _ => .scalar rest

theorem head_of_ofChar {c : Char} {tail : List Char} {found : Head}
    (seen : skipBlanks text = c :: tail) (ran : Head.ofChar c tail = .ok (found, rest)) :
    head text = .ok (passedOf found rest) := by
  rw [head, seen]
  dsimp only
  unfold Head.ofChar at ran
  split at ran
  · next quote =>
      obtain ⟨⟨inner, left⟩, ranString, same⟩ := exists_of_map_eq_ok ran
      cases same
      rw [if_pos quote, string_of_readString ranString]
      rfl
  next noQuote =>
  rw [if_neg noQuote]
  split at ran
  · next bracket =>
      cases ran
      rw [if_pos bracket]
      rfl
  next noBracket =>
  rw [if_neg noBracket]
  split at ran
  · next brace =>
      cases ran
      rw [if_pos brace]
      rfl
  next noBrace =>
  rw [if_neg noBrace]
  split at ran
  · next isNull =>
      obtain ⟨left, ranLiteral, same⟩ := exists_of_map_eq_ok ran
      cases same
      rw [if_pos isNull, ranLiteral]
      rfl
  next noNull =>
  rw [if_neg noNull]
  split at ran
  · next isTrue =>
      obtain ⟨left, ranLiteral, same⟩ := exists_of_map_eq_ok ran
      cases same
      rw [if_pos isTrue, ranLiteral]
      rfl
  next noTrue =>
  rw [if_neg noTrue]
  split at ran
  · next isFalse =>
      obtain ⟨left, ranLiteral, same⟩ := exists_of_map_eq_ok ran
      cases same
      rw [if_pos isFalse, ranLiteral]
      rfl
  next noFalse =>
  rw [if_neg noFalse]
  split at ran
  · next numeric =>
      obtain ⟨⟨number, left⟩, ranNumber, same⟩ := exists_of_map_eq_ok ran
      cases same
      obtain ⟨numeral, scanned⟩ := Numeral.exists_scan_of_read ranNumber .malformedNumber
      rw [if_pos numeric, scanned]
      rfl
  · cases ran

/-- A head that is read is passed over. -/
theorem head_of_read {found : Head} (ran : Head.read text = .ok (found, rest)) :
    head text = .ok (passedOf found rest) := by
  cases seen : skipBlanks text with
  | nil =>
      rw [Head.read, seen] at ran
      cases ran
  | cons c tail => exact head_of_ofChar seen ((Head.read_of_skipBlanks seen).symm.trans ran)

/-! ## Turns -/

theorem skipBlanks_skipBlanks (text : List Char) :
    skipBlanks (skipBlanks text) = skipBlanks text :=
  List.dropWhile_idempotent isSeparator text

theorem run_value_skipBlanks (text : List Char) :
    run outer .value (skipBlanks text) = run outer .value text := by
  have same : head (skipBlanks text) = head text := by rw [head, head, skipBlanks_skipBlanks]
  cases passed : head text with
  | error fault => rw [run_of_fault passed, run_of_fault (same.trans passed)]
  | ok found =>
      cases found with
      | scalar rest => rw [run_of_scalar passed, run_of_scalar (same.trans passed)]
      | opened enclosure rest => rw [run_of_opened passed, run_of_opened (same.trans passed)]

/-- What the look for the next item can find. -/
theorem of_nextItem {first : Bool} {found : ItemTurn} (ran : nextItem first text = .ok found) :
    (∃ rest, skipBlanks text = ']' :: rest ∧ found = .finished rest) ∨
      (first = true ∧ ∃ c rest, skipBlanks text = c :: rest ∧ c ≠ ']' ∧
        found = .another (c :: rest)) ∨
      (first = false ∧ ∃ rest, skipBlanks text = ',' :: rest ∧
        found = .another (skipBlanks rest)) := by
  unfold nextItem at ran
  split at ran
  · cases ran
  next c rest seen =>
  split at ran
  · next closes =>
      cases ran
      exact .inl ⟨rest, eq_of_beq closes ▸ seen, rfl⟩
  next inside =>
  split at ran
  · next isFirst =>
      cases ran
      exact .inr (.inl ⟨isFirst, c, rest, seen, by simpa using inside, rfl⟩)
  next later =>
  split at ran
  · next comma =>
      split at ran
      · cases ran
      next d behind seenItem =>
      split at ran
      · cases ran
      · cases ran
        exact .inr (.inr ⟨by simpa using later, rest, eq_of_beq comma ▸ seen, by rw [seenItem]⟩)
  · cases ran

theorem run_of_nextItem_finished {first : Bool}
    (found : nextItem first text = .ok (.finished rest)) :
    run (.array :: outer) (turn first) text = run outer .nextItem rest := by
  rcases of_nextItem found with
    ⟨_, seen, same⟩ | ⟨-, _, _, -, -, other⟩ | ⟨-, _, -, other⟩
  · cases same
    exact run_closed first seen
  · cases other
  · cases other

theorem run_of_nextItem_another {first : Bool} {start : List Char}
    (found : nextItem first text = .ok (.another start)) :
    run (.array :: outer) (turn first) text = run (.array :: outer) .value start := by
  rcases of_nextItem found with
    ⟨_, -, other⟩ | ⟨rfl, c, rest, seen, inside, same⟩ | ⟨rfl, rest, seen, same⟩
  · cases other
  · cases same
    have inside : c ≠ Enclosure.array.closer := inside
    rw [turn, if_pos rfl, run_first seen inside, run_item_array, ← seen, run_value_skipBlanks]
  · cases same
    rw [turn, if_neg Bool.false_ne_true, run_comma seen, run_item_array, run_value_skipBlanks]

/-- What the look for the next key can find. -/
theorem of_nextKey {first : Bool} {found : KeyTurn} (ran : nextKey first text = .ok found) :
    (∃ rest, skipBlanks text = '\x7d' :: rest ∧ found = .finished rest) ∨
      (first = true ∧ ∃ c rest, skipBlanks text = c :: rest ∧ c ≠ '\x7d' ∧
        readKey c rest = .ok found) ∨
      (first = false ∧ ∃ rest c behind, skipBlanks text = ',' :: rest ∧
        skipBlanks rest = c :: behind ∧ readKey c behind = .ok found) := by
  unfold nextKey at ran
  split at ran
  · cases ran
  next c rest seen =>
  split at ran
  · next closes =>
      cases ran
      exact .inl ⟨rest, eq_of_beq closes ▸ seen, rfl⟩
  next inside =>
  split at ran
  · next isFirst => exact .inr (.inl ⟨isFirst, c, rest, seen, by simpa using inside, ran⟩)
  next later =>
  split at ran
  · next comma =>
      split at ran
      · cases ran
      next d behind seenKey =>
      split at ran
      · cases ran
      · exact .inr (.inr ⟨by simpa using later, rest, d, behind, eq_of_beq comma ▸ seen, seenKey,
          ran⟩)
  · cases ran

theorem run_of_nextKey_finished {first : Bool} (found : nextKey first text = .ok (.finished rest)) :
    run (.object :: outer) (turn first) text = run outer .nextItem rest := by
  rcases of_nextKey found with
    ⟨_, seen, same⟩ | ⟨-, _, _, -, -, other⟩ | ⟨-, _, _, _, -, -, other⟩
  · cases same
    exact run_closed first seen
  · exact absurd other readKey_ne_finished
  · exact absurd other readKey_ne_finished

/-- A key that is read is passed over together with its colon. -/
theorem key_of_readKey {c : Char} {tail start : List Char} {name : String}
    (seen : skipBlanks text = c :: tail) (found : readKey c tail = .ok (.another name rest))
    (colon : readColon rest = .ok start) : key text = .ok start := by
  unfold readKey at found
  rw [key, seen]
  dsimp only
  split at found
  · next quote =>
      split at found
      · cases found
      · next ran =>
          cases found
          rw [if_pos quote, string_of_readString ran]
          exact colon
  · cases found

theorem run_of_nextKey_another {first : Bool} {start : List Char} {name : String}
    (found : nextKey first text = .ok (.another name rest)) (colon : readColon rest = .ok start) :
    run (.object :: outer) (turn first) text = run (.object :: outer) .value start := by
  rcases of_nextKey found with
    ⟨_, -, other⟩ | ⟨rfl, c, tail, seen, inside, read⟩ | ⟨rfl, tail, c, behind, seen, seenKey, read⟩
  · cases other
  · have inside : c ≠ Enclosure.object.closer := inside
    rw [turn, if_pos rfl, run_first seen inside, run_item_object (key_of_readKey seen read colon)]
  · rw [turn, if_neg Bool.false_ne_true, run_comma seen,
      run_item_object (key_of_readKey seenKey read colon)]

theorem run_of_readEnd (first : Bool) (ended : RecordForm.readEnd text = .ok rest) :
    run (.array :: outer) (turn first) text = run outer .nextItem rest := by
  unfold RecordForm.readEnd at ended
  split at ended
  · cases ended
  next c tail seen =>
  split at ended
  · next closes =>
      cases ended
      obtain rfl := eq_of_beq closes
      exact run_closed first seen
  · split at ended
    · split at ended <;> cases ended
    · cases ended

/-- What is passed over inside of some containers is passed over inside of more of them. -/
theorem run_append {enclosures : List Enclosure} {awaiting : Awaiting}
    (ran : run enclosures awaiting text = .ok rest) (outer : List Enclosure)
    (inside : awaiting = .value ∨ awaiting = .nextItem ∨ enclosures ≠ []) :
    run (enclosures ++ outer) awaiting text = run outer .nextItem rest := by
  fun_induction run enclosures awaiting text with
  | case1 => cases ran
  | case2 enclosures text behind passed _ inductionHypothesis =>
      rw [run_of_scalar passed, inductionHypothesis ran (.inr (.inl rfl))]
  | case3 enclosures text enclosure behind passed _ inductionHypothesis =>
      rw [run_of_opened passed, ← List.cons_append,
        inductionHypothesis ran (.inr (.inr (List.cons_ne_nil _ _)))]
  | case4 awaiting text notValue =>
      cases ran
      rcases inside with value | next | open'
      · exact absurd value notValue
      · rw [next, List.nil_append]
      · exact absurd rfl open'
  | case5 text inner inductionHypothesis =>
      rw [List.cons_append, run_item_array, ← List.cons_append, inductionHypothesis ran (.inl rfl)]
  | case6 => cases ran
  | case7 text inner behind passed _ inductionHypothesis =>
      rw [List.cons_append, run_item_object passed, ← List.cons_append,
        inductionHypothesis ran (.inl rfl)]
  | case8 => cases ran
  | case9 text enclosure inner c behind seen _ closes inductionHypothesis =>
      obtain rfl := eq_of_beq closes
      exact (run_closed true seen).trans (inductionHypothesis ran (.inr (.inl rfl)))
  | case10 text enclosure inner c behind seen _ inside' inductionHypothesis =>
      rw [List.cons_append, run_first seen (by simpa using inside'), ← List.cons_append,
        inductionHypothesis ran (.inr (.inr (List.cons_ne_nil _ _)))]
  | case11 => cases ran
  | case12 text enclosure inner c behind seen _ comma inductionHypothesis =>
      obtain rfl := eq_of_beq comma
      rw [List.cons_append, run_comma seen, ← List.cons_append,
        inductionHypothesis ran (.inr (.inr (List.cons_ne_nil _ _)))]
  | case13 text enclosure inner c behind seen _ _ closes inductionHypothesis =>
      obtain rfl := eq_of_beq closes
      exact (run_closed false seen).trans (inductionHypothesis ran (.inr (.inl rfl)))
  | case14 => cases ran

end Skim

/-! ## Readers -/

/-- A reader takes what the skimmer passes over. -/
def Reader.Skims (reader : Reader α) : Prop :=
  ∀ ⦃text : List Char⦄ ⦃value : α⦄ ⦃rest : List Char⦄, reader.run text = .ok (value, rest) →
    ∀ outer, Skim.run outer .value text = Skim.run outer .nextItem rest

namespace Skim

variable {text rest : List Char} {first : Bool}

theorem run_of_readItems {item : Reader α} (each : item.Skims) {reversed items : List α}
    (ran : readItems item first reversed text = .ok (items, rest)) (outer : List Enclosure) :
    run (.array :: outer) (turn first) text = run outer .nextItem rest := by
  fun_induction readItems item first reversed text with
  | case1 => cases ran
  | case2 first reversed text behind finished =>
      cases ran
      exact run_of_nextItem_finished finished
  | case3 => cases ran
  | case4 first reversed text start another value behind one _ inductionHypothesis =>
      rw [run_of_nextItem_another another, each one]
      exact inductionHypothesis ran

theorem run_of_readMembers {member : σ → String → Except Cause (Reader σ)}
    (each : ∀ (state : σ) (key : String) (reader : Reader σ),
      member state key = .ok reader → reader.Skims) {state result : σ}
    (ran : readMembers member first state text = .ok (result, rest)) (outer : List Enclosure) :
    run (.object :: outer) (turn first) text = run outer .nextItem rest := by
  fun_induction readMembers member first state text with
  | case1 => cases ran
  | case2 first state text behind finished =>
      cases ran
      exact run_of_nextKey_finished finished
  | case3 => cases ran
  | case4 => cases ran
  | case5 => cases ran
  | case6 first state text key behind another value accepted start colon next behindValue one _
      inductionHypothesis =>
      rw [run_of_nextKey_another another colon, each state key value accepted one]
      exact inductionHypothesis ran

theorem run_of_readPositional {form : RecordForm ρ} {fields : List (Field ρ)}
    (each : ∀ field ∈ fields, ∀ record, (field.read record).Skims) {index : Nat}
    {record result : ρ} (ran : form.readPositional index record fields text = .ok (result, rest))
    (outer : List Enclosure) :
    run (.array :: outer) (turn (index == 0)) text = run outer .nextItem rest := by
  induction fields generalizing index record text with
  | nil =>
      unfold RecordForm.readPositional at ran
      split at ran
      · cases ran
      · next ended =>
          cases ran
          exact run_of_readEnd _ ended
  | cons field fields inductionHypothesis =>
      obtain ⟨one, others⟩ := List.forall_mem_cons.mp each
      unfold RecordForm.readPositional at ran
      split at ran
      · cases ran
      · next finished =>
          split at ran
          · cases ran
          · cases ran
            exact run_of_nextItem_finished finished
      · next another =>
          split at ran
          · cases ran
          · next value =>
              rw [run_of_nextItem_another another, one record value]
              exact inductionHypothesis others ran

end Skim

namespace Reader.Skims

variable {reader : Reader α}

theorem map (skims : reader.Skims) (f : α → β) : (reader.map f).Skims := by
  intro text result rest ran
  simp only [Reader.map] at ran
  split at ran
  · next inner =>
      cases ran
      exact skims inner
  · cases ran

/-- A reader that accepts no bracket. -/
theorem ofHead {accept : Head → List Char → Except Fault α}
    (scalar : ∀ head rest value, accept head rest = .ok value →
      Skim.passedOf head rest = .scalar rest) : (Reader.ofHead accept).Skims := by
  intro text result rest ran outer
  simp only [Reader.ofHead] at ran
  split at ran
  · cases ran
  · next head behind read =>
      split at ran
      · cases ran
      · next accepted =>
          cases ran
          have passed := Skim.head_of_read read
          rw [scalar _ _ _ accepted] at passed
          exact Skim.run_of_scalar passed

theorem string : Reader.string.Skims :=
  ofHead fun head _ _ accepted => by cases head <;> first | rfl | cases accepted

theorem float : Reader.float.Skims :=
  ofHead fun head _ _ accepted => by cases head <;> first | rfl | cases accepted

theorem integer : Reader.integer.Skims :=
  ofHead fun head _ _ accepted => by cases head <;> first | rfl | cases accepted

theorem skim : Reader.skim.Skims := by
  intro text result rest ran outer
  simp only [Reader.skim] at ran
  split at ran
  · cases ran
  · next passed =>
      cases ran
      exact Skim.run_append passed outer (.inl rfl)

theorem array (skims : reader.Skims) : (Reader.array reader).Skims := by
  intro text result rest ran outer
  simp only [Reader.array] at ran
  split at ran
  · cases ran
  · next read =>
      rw [Skim.run_of_opened (Skim.head_of_read read)]
      exact Skim.run_of_readItems skims ran outer
  · cases ran

theorem readValue {nested : Option (Reader Json)} (each : ∀ reader ∈ nested, reader.Skims)
    {text rest : List Char} {value : Json} (ran : readValue nested text = .ok (value, rest))
    (outer : List Skim.Enclosure) :
    Skim.run outer .value text = Skim.run outer .nextItem rest := by
  unfold Json.readValue at ran
  split at ran
  · cases ran
  · next read => cases ran; exact Skim.run_of_scalar (Skim.head_of_read read)
  · next read => cases ran; exact Skim.run_of_scalar (Skim.head_of_read read)
  · next read => cases ran; exact Skim.run_of_scalar (Skim.head_of_read read)
  · next read => cases ran; exact Skim.run_of_scalar (Skim.head_of_read read)
  · next read =>
      rw [Skim.run_of_opened (Skim.head_of_read read)]
      split at ran
      · cases ran
      · split at ran
        · cases ran
        · next items =>
            cases ran
            exact Skim.run_of_readItems (each _ rfl) items outer
  · next read =>
      rw [Skim.run_of_opened (Skim.head_of_read read)]
      split at ran
      · cases ran
      · dsimp only at ran
        split at ran
        · cases ran
        · next members =>
            cases ran
            refine Skim.run_of_readMembers ?_ members outer
            intro state key reader accepted
            cases accepted
            exact (each _ rfl).map _

theorem value (depth : Nat) : (Reader.value depth).Skims := by
  induction depth with
  | zero =>
      have each : ∀ reader ∈ (none : Option (Reader Json)), reader.Skims := by rintro reader ⟨⟩
      exact fun _ _ _ ran => readValue each ran
  | succ depth inductionHypothesis =>
      have each : ∀ reader ∈ some (Reader.value depth), reader.Skims := by
        rintro reader ⟨⟩
        exact inductionHypothesis
      exact fun _ _ _ ran => readValue each ran

end Reader.Skims

namespace RecordForm

variable {form : RecordForm ρ}

theorem skims_member (each : ∀ field ∈ form.fields, ∀ record, (field.read record).Skims)
    {draft : Draft ρ} {key : String} {reader : Reader (Draft ρ)}
    (accepted : form.member draft key = .ok reader) : reader.Skims := by
  unfold member at accepted
  split at accepted
  · next field found =>
      split at accepted
      · cases accepted
      · cases accepted
        exact (each field (List.mem_of_find?_eq_some found) _).map _
  · cases accepted
    exact Reader.Skims.skim.map _

theorem skims_reader (each : ∀ field ∈ form.fields, ∀ record, (field.read record).Skims) :
    form.reader.Skims := by
  intro text result rest ran outer
  simp only [reader, read] at ran
  split at ran
  · cases ran
  · next read =>
      rw [Skim.run_of_opened (Skim.head_of_read read)]
      unfold readNamed at ran
      split at ran
      · cases ran
      · next members =>
          split at ran
          · cases ran
          · cases ran
            exact Skim.run_of_readMembers (fun _ _ _ => skims_member each) members outer
  · next read =>
      rw [Skim.run_of_opened (Skim.head_of_read read)]
      exact Skim.run_of_readPositional each ran outer
  · cases ran

end RecordForm
/-- A reader that has succeeded in front of a value stands right behind it. -/
theorem Reader.Skims.spaced {reader : Reader α} (skims : reader.Skims) {value more : List Token}
    (isValue : IsValue value) (closes : Closes more) {text rest : List Char} {result : α}
    (spaced : Spaced (value ++ more) text) (ran : reader.run text = .ok (result, rest)) :
    Spaced more rest := by
  obtain ⟨behind, others, passed⟩ := Skim.passesOver_of_isValue isValue closes spaced
  have same := (passed []).symm.trans (skims ran [])
  rw [Skim.run_nothing, Skim.run_nothing] at same
  exact Except.ok.inj same ▸ others

end MotionSteps.Json
