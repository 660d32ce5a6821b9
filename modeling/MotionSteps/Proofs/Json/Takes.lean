import MotionSteps.Proofs.Json.Numbers
import MotionSteps.Proofs.Json.Skims

/-!
# What readers take of a text of tokens

Forwards, `Takes` says that a reader makes a given value of a row of tokens in every layout. An
array is taken if its items are. A record is taken if its members are, in whatever order they
stand and whatever other members stand between them. Backwards, `Accepts` says that a reader has
made something of a row of tokens. Whoever accepts an array has accepted its items, and a record
that is accepted gives none of its fields twice.
-/

namespace MotionSteps.Json

variable {α β ρ σ : Type}

/-- In every layout a reader makes `result` of a row of tokens and stops behind it. -/
def Takes (reader : Reader α) (tokens : List Token) (result : α) : Prop :=
  ∀ ⦃more : List Token⦄ ⦃text : List Char⦄, Closes more → Spaced (tokens ++ more) text →
    ∃ rest, Spaced more rest ∧ reader.run text = .ok (result, rest)

/-- In some layout a reader makes something of a row of tokens. -/
def Accepts (reader : Reader α) (tokens : List Token) : Prop :=
  ∃ more text result rest, Closes more ∧ Spaced (tokens ++ more) text ∧
    reader.run text = .ok (result, rest)

/-! ## Taking values -/

namespace Takes

theorem map {reader : Reader α} {tokens : List Token} {result : α}
    (takes : Takes reader tokens result) (f : α → β) :
    Takes (reader.map f) tokens (f result) := by
  intro more text closes spaced
  obtain ⟨rest, others, ran⟩ := takes closes spaced
  exact ⟨rest, others, by simp only [Reader.map, ran]⟩

theorem skim {value : List Token} (isValue : IsValue value) : Takes Reader.skim value () := by
  intro more text closes spaced
  obtain ⟨rest, others, passed⟩ := Skim.passesOver_of_isValue isValue closes spaced
  have ran : Skim.run [] .value text = .ok rest := (passed []).trans (Skim.run_nothing rest)
  exact ⟨rest, others, by simp only [Reader.skim, ran]⟩

theorem string {inside : List Char} {meaning : String} (spells : Spells inside meaning.toList) :
    Takes Reader.string [stringToken inside] meaning := by
  intro more text _ spaced
  obtain ⟨rest, others, read⟩ := Head.exists_read_string spells spaced
  exact ⟨rest, others, by simp only [Reader.string, Reader.ofHead, read]⟩

theorem float {numeral : Token} {number : Number} (begins : Number.Begins numeral)
    (value : Numeral.read numeral = .ok (number, [])) :
    Takes Reader.float [numeral] number.toFloat := by
  intro more text closes spaced
  obtain ⟨rest, others, read⟩ := Head.exists_read_numeral begins value closes spaced
  exact ⟨rest, others, by simp only [Reader.float, Reader.ofHead, read]⟩

theorem integer {numeral : Token} {found : Int} (begins : Number.Begins numeral)
    (value : Numeral.read numeral = .ok (.integer found, []))
    (greatest : found ≤ MotionSteps.Number.integerMax) :
    Takes Reader.integer [numeral] found := by
  intro more text closes spaced
  obtain ⟨rest, others, read⟩ := Head.exists_read_numeral begins value closes spaced
  exact ⟨rest, others, by simp only [Reader.integer, Reader.ofHead, read, if_pos greatest]⟩

theorem null (limit : Nat) : Takes (Reader.value limit) [['n', 'u', 'l', 'l']] .null := by
  intro more text _ spaced
  obtain ⟨rest, others, read⟩ := Head.exists_read_null spaced
  cases limit <;> exact ⟨rest, others, by simp only [Reader.value, readValue, read]⟩

theorem text {inside : List Char} {meaning : String} (spells : Spells inside meaning.toList)
    (limit : Nat) : Takes (Reader.value limit) [stringToken inside] (.string meaning) := by
  intro more text _ spaced
  obtain ⟨rest, others, read⟩ := Head.exists_read_string spells spaced
  cases limit <;> exact ⟨rest, others, by simp only [Reader.value, readValue, read]⟩

/-- The items of an array are taken one after the other. -/
theorem readItems {item : Reader α} {items : List (List Token)} {results : List α}
    (each : List.Forall₂ (fun tokens result => Begins tokens ∧ Takes item tokens result)
      items results) {first : Bool} (reversed : List α) {more : List Token} {text : List Char}
    (spaced : Spaced (itemsTokens first items ++ more) text) :
    ∃ rest, Spaced more rest ∧
      readItems item first reversed text = .ok (reversed.reverse ++ results, rest) := by
  induction each generalizing first reversed text with
  | nil =>
      obtain ⟨rest, others, finished⟩ := spaced.nextItem_finished first
      exact ⟨rest, others, by rw [readItems_of_finished finished, List.append_nil]⟩
  | @cons tokens result items results one _ inductionHypothesis =>
      obtain ⟨begins, takes⟩ := one
      rw [itemsTokens, List.append_assoc, List.append_assoc] at spaced
      obtain ⟨start, spacedItem, another⟩ := spaced.nextItem_another (begins.append _)
      obtain ⟨behind, spacedItems, ran⟩ := takes (closes_itemsTokens items more) spacedItem
      obtain ⟨rest, others, ranItems⟩ := inductionHypothesis (result :: reversed) spacedItems
      refine ⟨rest, others, ?_⟩
      rw [readItems_of_another another ran, ranItems]
      simp

theorem array {item : Reader α} {items : List (List Token)} {results : List α}
    (each : List.Forall₂ (fun tokens result => Begins tokens ∧ Takes item tokens result)
      items results) : Takes (Reader.array item) (arrayTokens items) results := by
  intro more text _ spaced
  obtain ⟨behind, spacedItems, read⟩ := Head.exists_read_array spaced
  obtain ⟨rest, others, ran⟩ := readItems each [] spacedItems
  exact ⟨rest, others, by simp only [Reader.array, read, ran]; rfl⟩

/-- A member in front of others is read, and the reader goes on with the others. -/
theorem readMember {step : σ → String → Except Cause (Reader σ)} {member : SpelledMember}
    {members : List SpelledMember} {state next : σ} {key : String} {reader : Reader σ}
    (takes : Takes reader member.value next) (spells : Spells member.inside key.toList)
    (accepted : step state key = .ok reader) {first : Bool} {more : List Token} {text : List Char}
    (spaced : Spaced (membersTokens first (member :: members) ++ more) text) :
    ∃ further, Spaced (membersTokens false members ++ more) further ∧
      readMembers step first state text = readMembers step false next further := by
  simp only [membersTokens, List.append_assoc, List.cons_append] at spaced
  obtain ⟨behind, spacedColon, another⟩ := spaced.nextKey_another spells
  obtain ⟨start, spacedValue, colon⟩ := spacedColon.readColon_eq
  obtain ⟨further, spacedMembers, ran⟩ := takes (closes_membersTokens members more) spacedValue
  exact ⟨further, spacedMembers, readMembers_of_another another accepted colon ran⟩

end Takes

/-! ## Accepted values -/

/-- A reader of items that has gone on has read the item it stood in front of. -/
theorem exists_of_readItems {item : Reader α} {first : Bool} {reversed results : List α}
    {text start rest : List Char} (another : nextItem first text = .ok (.another start))
    (ran : readItems item first reversed text = .ok (results, rest)) :
    ∃ value behind, item.run start = .ok (value, behind) ∧
      readItems item false (value :: reversed) behind = .ok (results, rest) := by
  cases one : item.run start with
  | ok found =>
      obtain ⟨value, behind⟩ := found
      rw [readItems_of_another another one] at ran
      exact ⟨value, behind, rfl, ran⟩
  | error fault =>
      rw [readItems] at ran
      split at ran
      · cases ran
      · next finished =>
          rw [another] at finished
          cases finished
      · next same =>
          rw [another] at same
          cases same
          split at ran
          · cases ran
          · next read =>
              rw [one] at read
              cases read

namespace Accepts

theorem of_map {reader : Reader α} {f : α → β} {tokens : List Token}
    (accepts : Accepts (reader.map f) tokens) : Accepts reader tokens := by
  obtain ⟨more, text, result, rest, closes, spaced, ran⟩ := accepts
  simp only [Reader.map] at ran
  split at ran
  · next value behind inner => exact ⟨more, text, value, behind, closes, spaced, inner⟩
  · cases ran

/-- A reader of items that comes to an end has accepted each of them. -/
theorem of_readItems {item : Reader α} (skims : item.Skims) {items : List (List Token)}
    (values : ∀ tokens ∈ items, IsValue tokens) {first : Bool} {reversed results : List α}
    {more : List Token} {text rest : List Char}
    (spaced : Spaced (itemsTokens first items ++ more) text)
    (ran : readItems item first reversed text = .ok (results, rest)) :
    ∀ tokens ∈ items, Accepts item tokens := by
  induction items generalizing first reversed text with
  | nil => exact List.forall_mem_nil _
  | cons tokens items inductionHypothesis =>
      obtain ⟨isValue, others⟩ := List.forall_mem_cons.mp values
      rw [itemsTokens, List.append_assoc, List.append_assoc] at spaced
      obtain ⟨start, spacedItem, another⟩ := spaced.nextItem_another (isValue.begins.append _)
      obtain ⟨value, behind, one, ranItems⟩ := exists_of_readItems another ran
      have closes := closes_itemsTokens items more
      have spacedItems := skims.spaced isValue closes spacedItem one
      exact List.forall_mem_cons.mpr ⟨⟨_, start, value, behind, closes, spacedItem, one⟩,
        inductionHypothesis others spacedItems ranItems⟩

theorem of_array {item : Reader α} (skims : item.Skims) {items : List (List Token)}
    (values : ∀ tokens ∈ items, IsValue tokens)
    (accepts : Accepts (Reader.array item) (arrayTokens items)) :
    ∀ tokens ∈ items, Accepts item tokens := by
  obtain ⟨more, text, result, rest, -, spaced, ran⟩ := accepts
  obtain ⟨behind, spacedItems, read⟩ := Head.exists_read_array spaced
  simp only [Reader.array, read] at ran
  exact of_readItems skims values spacedItems ran

/-- What parses as a whole is accepted. -/
theorem of_parse {reader : Reader α} {tokens : List Token} {text : String} {result : α}
    (spaced : Spaced tokens text.toList) (parsed : reader.parse text = .ok result) :
    Accepts reader tokens := by
  simp only [Reader.parse] at parsed
  split at parsed
  · cases parsed
  · next value rest ran =>
      exact ⟨[], text.toList, value, rest, closes_nil, by rwa [List.append_nil], ran⟩

end Accepts

/-- What is taken is parsed, if it is the whole text. -/
theorem Takes.parse {reader : Reader α} {tokens : List Token} {text : String} {result : α}
    (takes : Takes reader tokens result) (spaced : Spaced tokens text.toList) :
    reader.parse text = .ok result := by
  obtain ⟨rest, blank, ran⟩ := takes closes_nil (by rwa [List.append_nil])
  cases blank with
  | nil blank =>
      have skipped : skipBlanks rest = [] := List.dropWhile_eq_nil_iff.mpr blank
      simp only [Reader.parse, ran, skipped]

end MotionSteps.Json
