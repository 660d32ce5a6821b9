import Mathlib.Data.List.Forall2
import MotionSteps.Json.Reader.Record
import MotionSteps.Json.Reader.Value
import MotionSteps.Program.Basic
import MotionSteps.Proofs.Json.Token

/-!
# Printed values are read back

`Reads` says that a reader takes a printed value and makes a certain result of it, in every
layout, at every depth and in front of every rest that a value may stand in front of. An
array is read if each of its items is, an object if its members are absorbed one after the
other. Both loops are treated here for readers of any kind, so a free value and a record
come out of the same two lemmas.
-/

namespace MotionSteps.Json

variable {α β σ ρ : Type}

/-- A reader takes a printed value off a text and makes `result` of it. -/
def Reads (reader : Reader α) (value : Json) (result : α) : Prop :=
  ∀ layout : Layout, layout.Lawful → ∀ (depth : Nat) (blanks rest : List Char),
    Separators blanks → Delimited rest →
      reader.run (blanks ++ (chars layout depth value ++ rest)) = .ok (result, rest)

/-- The members of an object are taken into a state, one after the other. -/
inductive Absorbs (member : σ → String → Except Cause (Reader σ)) : σ → Members → σ → Prop where
  | nil (state : σ) : Absorbs member state [] state
  | cons {state next result : σ} {key : String} {value : Json} {reader : Reader σ}
      {members : Members} (accepted : member state key = .ok reader)
      (read : Reads reader value next) (others : Absorbs member next members result) :
      Absorbs member state ((key, value) :: members) result

/-- No value begins with a delimiter. -/
theorem exists_chars_cons (layout : Layout) (depth : Nat) (value : Json) :
    ∃ c more, chars layout depth value = c :: more ∧ isDelimiter c = false := by
  cases value with
  | null => exact ⟨'n', _, rfl, rfl⟩
  | bool value => cases value <;> exact ⟨_, _, rfl, rfl⟩
  | number value =>
      by_cases finite : value.IsFinite
      · obtain ⟨c, more, starts, numeric⟩ := Number.begins_text finite
        exact ⟨c, more, starts, Head.not_isDelimiter_of_numeral numeric⟩
      · refine ⟨'n', ['u', 'l', 'l'], ?_, rfl⟩
        rw [chars, Number.text_of_not_isFinite finite]
        rfl
  | string value => exact ⟨'"', _, rfl, rfl⟩
  | array items => cases items <;> exact ⟨'[', _, rfl, rfl⟩
  | object members =>
      cases members with
      | nil => exact ⟨_, _, rfl, rfl⟩
      | cons member members => exact ⟨'\x7b', _, by rw [chars], rfl⟩

theorem exists_membersChars_append (layout : Layout) (depth : Nat) (members : Members) :
    ∃ front, membersChars layout depth members = front ++ ['\x7d'] := by
  induction members with
  | nil => exact ⟨_, by rw [membersChars]⟩
  | cons member members inductionHypothesis =>
      obtain ⟨front, others⟩ := inductionHypothesis
      rw [membersChars, others, ← List.append_assoc, ← List.cons_append]
      exact ⟨_, rfl⟩

theorem exists_objectChars (layout : Layout) (depth : Nat) (members : Members) :
    ∃ inner, chars layout depth (.object members) = '\x7b' :: inner ++ ['\x7d'] := by
  cases members with
  | nil => exact ⟨[], by rw [chars]; rfl⟩
  | cons member members =>
      obtain ⟨front, others⟩ := exists_membersChars_append layout depth members
      rw [chars, others, ← List.append_assoc, ← List.cons_append]
      exact ⟨_, rfl⟩

/-! ## Turns -/

section

variable {blanks rest : List Char}

theorem nextItem_finished (blank : Separators blanks) (first : Bool) :
    nextItem first (blanks ++ ']' :: rest) = .ok (.finished rest) := by
  rw [nextItem, skipBlanks_append blank rfl]
  rfl

theorem nextItem_first (blank : Separators blanks) {c : Char} (inside : isDelimiter c = false) :
    nextItem true (blanks ++ c :: rest) = .ok (.another (c :: rest)) := by
  have open' := (not_closer_of_not_isDelimiter inside).2.1
  rw [nextItem, skipBlanks_append blank (isSeparator_of_not_isDelimiter inside)]
  simp [open']

theorem nextItem_comma (blank : Separators blanks) {c : Char} (inside : isDelimiter c = false) :
    nextItem false (',' :: (blanks ++ c :: rest)) = .ok (.another (c :: rest)) := by
  have open' := (not_closer_of_not_isDelimiter inside).2.1
  have comma : skipBlanks (',' :: (blanks ++ c :: rest)) = ',' :: (blanks ++ c :: rest) := rfl
  rw [nextItem, comma]
  simp [skipBlanks_append blank (isSeparator_of_not_isDelimiter inside), open']

theorem nextKey_finished (blank : Separators blanks) (first : Bool) :
    nextKey first (blanks ++ '\x7d' :: rest) = .ok (.finished rest) := by
  rw [nextKey, skipBlanks_append blank rfl]
  rfl

theorem readKey_stringChars (key : String) (rest : List Char) :
    readKey '"' ((stringChars key).tail ++ rest) = .ok (.another key rest) := by
  simp [readKey, readString_stringChars]

theorem nextKey_first (blank : Separators blanks) (key : String) :
    nextKey true (blanks ++ (stringChars key ++ rest)) = .ok (.another key rest) := by
  have ran := readKey_stringChars key rest
  rw [nextKey, stringChars, List.cons_append, skipBlanks_append blank rfl]
  exact ran

theorem nextKey_comma (blank : Separators blanks) (key : String) :
    nextKey false (',' :: (blanks ++ (stringChars key ++ rest))) = .ok (.another key rest) := by
  have ran := readKey_stringChars key rest
  have comma : skipBlanks (',' :: (blanks ++ (stringChars key ++ rest))) =
      ',' :: (blanks ++ (stringChars key ++ rest)) := rfl
  have quote : isSeparator '"' = false := rfl
  rw [nextKey, comma]
  simp only [stringChars, List.cons_append, skipBlanks_append blank quote]
  exact ran

theorem exists_readColon {layout : Layout} (lawful : layout.Lawful) (rest : List Char) :
    ∃ behind, Separators behind ∧ readColon (layout.colon ++ rest) = .ok (behind ++ rest) := by
  obtain ⟨before, behind, blankBefore, blankBehind, colon⟩ := lawful.colon
  refine ⟨behind, blankBehind, ?_⟩
  rw [colon, List.append_assoc, List.cons_append, readColon, skipBlanks_append blankBefore rfl]
  rfl

end

/-! ## Loops -/

section

variable {item : Reader α} {first : Bool} {reversed : List α} {text start rest : List Char}

theorem readItems_of_finished (turn : nextItem first text = .ok (.finished rest)) :
    readItems item first reversed text = .ok (reversed.reverse, rest) := by
  rw [readItems]
  split
  · next failed => rw [turn] at failed; cases failed
  · next done => rw [turn] at done; cases done; rfl
  · next other => rw [turn] at other; cases other

theorem readItems_of_another {value : α} (turn : nextItem first text = .ok (.another start))
    (ran : item.run start = .ok (value, rest)) :
    readItems item first reversed text = readItems item false (value :: reversed) rest := by
  rw [readItems]
  split
  · next failed => rw [turn] at failed; cases failed
  · next done => rw [turn] at done; cases done
  · next other =>
      rw [turn] at other
      cases other
      split
      · next failed => rw [ran] at failed; cases failed
      · next done => rw [ran] at done; cases done; rfl

end

section

variable {member : σ → String → Except Cause (Reader σ)} {first : Bool} {state next : σ}
  {text start rest : List Char}

theorem readMembers_of_finished (turn : nextKey first text = .ok (.finished rest)) :
    readMembers member first state text = .ok (state, rest) := by
  rw [readMembers]
  split
  · next failed => rw [turn] at failed; cases failed
  · next done => rw [turn] at done; cases done; rfl
  · next other => rw [turn] at other; cases other

theorem readMembers_of_another {key : String} {behind : List Char} {value : Reader σ}
    (turn : nextKey first text = .ok (.another key behind))
    (accepted : member state key = .ok value) (colon : readColon behind = .ok start)
    (ran : value.run start = .ok (next, rest)) :
    readMembers member first state text = readMembers member false next rest := by
  rw [readMembers]
  split
  · next failed => rw [turn] at failed; cases failed
  · next done => rw [turn] at done; cases done
  · next other =>
      rw [turn] at other
      cases other
      rw [accepted]
      dsimp only
      split
      · next failed => rw [colon] at failed; cases failed
      · next begun =>
          rw [colon] at begun
          cases begun
          split
          · next failed => rw [ran] at failed; cases failed
          · next done => rw [ran] at done; cases done; rfl

end

section

variable {layout : Layout} (lawful : layout.Lawful) {depth : Nat} {rest : List Char}

include lawful

theorem delimited_itemsChars (depth : Nat) (values : List Json) (rest : List Char) :
    Delimited (itemsChars layout depth values ++ rest) := by
  cases values with
  | nil =>
      rw [itemsChars, List.append_assoc]
      exact delimited_append (lawful.gap depth) (delimited_cons rfl)
  | cons value values =>
      rw [itemsChars]
      exact delimited_cons rfl

theorem delimited_membersChars (depth : Nat) (members : Members) (rest : List Char) :
    Delimited (membersChars layout depth members ++ rest) := by
  cases members with
  | nil =>
      rw [membersChars, List.append_assoc]
      exact delimited_append (lawful.gap depth) (delimited_cons rfl)
  | cons member members =>
      rw [membersChars]
      exact delimited_cons rfl

theorem readItems_itemsChars {item : Reader α} {values : List Json} {results : List α}
    (each : List.Forall₂ (Reads item) values results) (reversed : List α) :
    readItems item false reversed (itemsChars layout depth values ++ rest) =
      .ok (reversed.reverse ++ results, rest) := by
  induction each generalizing reversed with
  | nil =>
      rw [itemsChars, List.append_assoc, List.append_nil]
      exact readItems_of_finished (nextItem_finished (lawful.gap depth) false)
  | @cons value result values results read _ inductionHypothesis =>
      obtain ⟨c, more, starts, inside⟩ := exists_chars_cons layout (depth + 1) value
      have ran := read layout lawful (depth + 1) [] _ separators_nil
        (delimited_itemsChars lawful depth values rest)
      rw [starts] at ran
      rw [itemsChars, starts]
      simp only [List.cons_append, List.append_assoc, List.nil_append] at ran ⊢
      rw [readItems_of_another (nextItem_comma (lawful.gap (depth + 1)) inside) ran,
        inductionHypothesis]
      simp

/-- The text of an array behind its bracket is read item by item. -/
theorem exists_arrayBody {item : Reader α} {values : List Json} {results : List α}
    (each : List.Forall₂ (Reads item) values results) (depth : Nat) (rest : List Char) :
    ∃ body, chars layout depth (.array values) = '[' :: body ∧
      readItems item true [] (body ++ rest) = .ok (results, rest) := by
  cases each with
  | nil =>
      exact ⟨[']'], by rw [chars], readItems_of_finished (nextItem_finished separators_nil true)⟩
  | @cons value result values results read others =>
      obtain ⟨c, more, starts, inside⟩ := exists_chars_cons layout (depth + 1) value
      have ran := read layout lawful (depth + 1) [] _ separators_nil
        (delimited_itemsChars lawful depth values rest)
      refine ⟨_, by rw [chars], ?_⟩
      rw [starts] at ran ⊢
      simp only [List.cons_append, List.append_assoc, List.nil_append] at ran ⊢
      rw [readItems_of_another (nextItem_first (lawful.gap (depth + 1)) inside) ran,
        readItems_itemsChars lawful others]
      rfl

theorem readMembers_membersChars {member : σ → String → Except Cause (Reader σ)}
    {state result : σ} {members : Members} (absorbed : Absorbs member state members result) :
    readMembers member false state (membersChars layout depth members ++ rest) =
      .ok (result, rest) := by
  induction absorbed with
  | nil state =>
      rw [membersChars, List.append_assoc]
      exact readMembers_of_finished (nextKey_finished (lawful.gap depth) false)
  | @cons state next result key value reader members accepted read _ inductionHypothesis =>
      have delimited := delimited_membersChars lawful depth members rest
      obtain ⟨behind, blank, colon⟩ := exists_readColon lawful
        (chars layout (depth + 1) value ++ (membersChars layout depth members ++ rest))
      have ran := read layout lawful (depth + 1) behind _ blank delimited
      rw [membersChars]
      simp only [List.cons_append, List.append_assoc]
      rw [readMembers_of_another (nextKey_comma (lawful.gap (depth + 1)) key) accepted colon ran,
        inductionHypothesis]

/-- The text of an object behind its brace is read member by member. -/
theorem exists_objectBody {member : σ → String → Except Cause (Reader σ)} {state result : σ}
    {members : Members} (absorbed : Absorbs member state members result) (depth : Nat)
    (rest : List Char) :
    ∃ body, chars layout depth (.object members) = '\x7b' :: body ∧
      readMembers member true state (body ++ rest) = .ok (result, rest) := by
  cases absorbed with
  | nil =>
      exact ⟨['\x7d'], by rw [chars],
        readMembers_of_finished (nextKey_finished separators_nil true)⟩
  | @cons state next result key value reader members accepted read others =>
      have delimited := delimited_membersChars lawful depth members rest
      obtain ⟨behind, blank, colon⟩ := exists_readColon lawful
        (chars layout (depth + 1) value ++ (membersChars layout depth members ++ rest))
      have ran := read layout lawful (depth + 1) behind _ blank delimited
      refine ⟨_, by rw [chars], ?_⟩
      simp only [List.append_assoc]
      rw [readMembers_of_another (nextKey_first (lawful.gap (depth + 1)) key) accepted colon ran,
        readMembers_membersChars lawful others]

end

/-! ## Readers -/

namespace Reads

theorem map {reader : Reader α} {value : Json} {result : α} (read : Reads reader value result)
    (f : α → β) : Reads (reader.map f) value (f result) := by
  intro layout lawful depth blanks rest blank delimited
  simp only [Reader.map, read layout lawful depth blanks rest blank delimited]

theorem string (text : String) : Reads Reader.string (.string text) text := by
  intro layout lawful depth blanks rest blank delimited
  simp only [Reader.string, Reader.ofHead, chars, Head.read_string blank]

theorem stringOrNull (text : Option String) :
    Reads Reader.stringOrNull (.ofText? text) text := by
  intro layout lawful depth blanks rest blank delimited
  cases text with
  | none =>
      simp only [Reader.stringOrNull, Reader.ofHead, ofText?, chars, List.cons_append,
        Head.read_append blank (show isSeparator 'n' = false from rfl)]
      rfl
  | some text =>
      simp only [Reader.stringOrNull, Reader.ofHead, ofText?, chars, Head.read_string blank]

theorem array {item : Reader α} {values : List Json} {results : List α}
    (each : List.Forall₂ (Reads item) values results) :
    Reads (Reader.array item) (.array values) results := by
  intro layout lawful depth blanks rest blank delimited
  obtain ⟨body, text, ran⟩ := exists_arrayBody lawful each depth rest
  have bracket : Head.read (blanks ++ '[' :: (body ++ rest)) = .ok (.array, body ++ rest) :=
    Head.read_append blank rfl
  simp only [Reader.array, text, List.cons_append, bracket, ran]

/-- A record is read if its members are absorbed and none that it requires is missing. -/
theorem record {form : RecordForm ρ} {members : Members} {draft : RecordForm.Draft ρ}
    (absorbed : Absorbs form.member ⟨[], form.blank⟩ members draft)
    (complete : form.missing? draft = none) :
    Reads form.reader (.object members) draft.record := by
  intro layout lawful depth blanks rest blank delimited
  obtain ⟨body, text, ran⟩ := exists_objectBody lawful absorbed depth rest
  have brace : Head.read (blanks ++ '\x7b' :: (body ++ rest)) = .ok (.object, body ++ rest) :=
    Head.read_append blank rfl
  simp only [RecordForm.reader, RecordForm.read, RecordForm.readNamed, text, List.cons_append,
    brace, ran, complete]

/-- The text of a value is read as a whole, in every layout. -/
theorem parse_chars {reader : Reader α} {value : Json} {result : α}
    (read : Reads reader value result) {layout : Layout} (lawful : layout.Lawful) :
    reader.parse (String.ofList (chars layout 0 value)) = .ok result := by
  have ran := read layout lawful 0 [] [] separators_nil delimited_nil
  rw [List.nil_append, List.append_nil] at ran
  simp only [Reader.parse, String.toList_ofList, ran]
  rfl

theorem parse_pretty {reader : Reader α} {value : Json} {result : α}
    (read : Reads reader value result) : reader.parse value.pretty = .ok result :=
  read.parse_chars Layout.lawful_indented

theorem parse_compact {reader : Reader α} {value : Json} {result : α}
    (read : Reads reader value result) : reader.parse value.compact = .ok result :=
  read.parse_chars Layout.lawful_compact

end Reads

end MotionSteps.Json
