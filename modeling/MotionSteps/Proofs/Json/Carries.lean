import MotionSteps.Proofs.Json.Records

/-!
# From one row of tokens to another

`Carries` compares what two readers make of two rows of tokens. Whatever the first makes of its row
in some layout, the second makes something related of its own in every layout. With one row and
equality this says that layout has no part in a reading. It goes up from the items to an array
and from the members to an object, so a value of any kind is read as the same in every layout, and
by every reader that follows as many nested containers as it has.
-/

namespace MotionSteps.Json

variable {α β γ δ σ τ : Type}

/-- Whatever a reader makes of a row of tokens in some layout, another makes something related of
another row in every layout. -/
def Carries (reader : Reader α) (other : Reader β) (related : α → β → Prop)
    (tokens others : List Token) : Prop :=
  ∀ ⦃more : List Token⦄ ⦃text : List Char⦄ ⦃result : α⦄ ⦃rest : List Char⦄, Closes more →
    Spaced (tokens ++ more) text → reader.run text = .ok (result, rest) →
      ∃ found, related result found ∧ Takes other others found

/-- A reader makes something related of a value in every layout. -/
def Reader.Steady (reader : Reader α) (related : α → α → Prop) : Prop :=
  ∀ value, IsValue value → Carries reader reader related value value

namespace Carries

variable {reader : Reader α} {other : Reader β} {related : α → β → Prop}
  {tokens others : List Token}

theorem map {further : γ → δ → Prop} {f : α → γ} {g : β → δ}
    (carries : Carries reader other related tokens others)
    (kept : ∀ value found, related value found → further (f value) (g found)) :
    Carries (reader.map f) (other.map g) further tokens others := by
  intro more text result rest closes spaced ran
  simp only [Reader.map] at ran
  split at ran
  · next value behind inner =>
      cases ran
      obtain ⟨found, same, takes⟩ := carries closes spaced inner
      exact ⟨g found, kept value found same, takes.map g⟩
  · cases ran

/-- Two readers that make something of their rows make something related of them. -/
theorem of_takes {value : α} {found : β} (takes : Takes reader tokens value)
    (takesOther : Takes other others found) (same : related value found) :
    Carries reader other related tokens others := by
  intro more text result rest closes spaced ran
  obtain ⟨_, -, known⟩ := takes closes spaced
  obtain ⟨rfl, -⟩ := Prod.mk.inj (Except.ok.inj (ran.symm.trans known))
  exact ⟨found, same, takesOther⟩

/-- What parses in one layout is carried over to the other row. -/
theorem of_parse (carries : Carries reader other related tokens others) {text : String}
    (spaced : Spaced tokens text.toList) {result : α} (parsed : reader.parse text = .ok result) :
    ∃ found, related result found ∧ Takes other others found := by
  simp only [Reader.parse] at parsed
  split at parsed
  · cases parsed
  · next value rest ran =>
      split at parsed
      · cases parsed
        rw [← List.append_nil tokens] at spaced
        exact carries closes_nil spaced ran
      · cases parsed

/-- A text that parses is carried over to every text of the other row. -/
theorem parse (carries : Carries reader other related tokens others) {text otherText : String}
    (spaced : Spaced tokens text.toList) (spacedOther : Spaced others otherText.toList)
    {result : α} (parsed : reader.parse text = .ok result) :
    ∃ found, related result found ∧ other.parse otherText = .ok found := by
  obtain ⟨found, same, takes⟩ := carries.of_parse spaced parsed
  exact ⟨found, same, takes.parse spacedOther⟩

end Carries

/-! ## Scalars -/

namespace Reader

/-- A reader of scalars that looks at nothing behind them is steady. -/
theorem steady_ofHead {accept : Head → List Char → Except Fault α}
    (scalar : ∀ {head rest value}, accept head rest = .ok value →
      head.IsScalar ∧ ∀ behind, accept head behind = .ok value) :
    (ofHead accept).Steady Eq := by
  intro value isValue more text result rest closes spaced ran
  simp only [ofHead] at ran
  split at ran
  · cases ran
  next head behind read =>
  split at ran
  · cases ran
  next found accepted =>
  cases ran
  obtain ⟨isScalar, anywhere⟩ := scalar accepted
  cases isValue with
  | atom isAtom =>
      have isOf := (Head.isOf_of_read isAtom closes spaced read).1
      refine ⟨result, rfl, fun others other closesOther spacedOther => ?_⟩
      obtain ⟨left, spacedLeft, readOther⟩ := isOf closesOther spacedOther
      exact ⟨left, spacedLeft, by simp only [ofHead, readOther, anywhere]⟩
  | array values =>
      obtain ⟨_, -, isArray⟩ := Head.exists_read_array spaced
      obtain ⟨rfl, -⟩ := Prod.mk.inj (Except.ok.inj (read.symm.trans isArray))
      exact isScalar.elim
  | object keys values =>
      obtain ⟨_, -, isObject⟩ := Head.exists_read_object spaced
      obtain ⟨rfl, -⟩ := Prod.mk.inj (Except.ok.inj (read.symm.trans isObject))
      exact isScalar.elim

theorem steady_string : string.Steady Eq := by
  refine steady_ofHead fun {head rest value} accepted => ?_
  cases head <;> first | exact ⟨trivial, fun _ => accepted⟩ | cases accepted

theorem steady_float : float.Steady Eq := by
  refine steady_ofHead fun {head rest value} accepted => ?_
  cases head <;> first | exact ⟨trivial, fun _ => accepted⟩ | cases accepted

theorem steady_integer : integer.Steady Eq := by
  refine steady_ofHead fun {head rest value} accepted => ?_
  split at accepted
  · next found =>
      split at accepted
      · next fits => exact ⟨trivial, fun _ => by rw [if_pos fits]; exact accepted⟩
      · cases accepted
  · cases accepted

end Reader

/-- Nothing is made of a value that is skimmed. -/
theorem carries_skim (tokens : List Token) {others : List Token} (isOther : IsValue others) :
    Carries Reader.skim Reader.skim Eq tokens others :=
  fun _ _ _ _ _ _ _ => ⟨(), rfl, .skim isOther⟩

/-! ## Arrays -/

/-- The items of an array are carried over one after the other. -/
theorem carries_readItems {item : Reader α} {other : Reader β} (skims : item.Skims)
    {related : α → β → Prop} {items others : List (List Token)}
    (each : List.Forall₂ (fun tokens others => IsValue tokens ∧ IsValue others ∧
      Carries item other related tokens others) items others)
    {first : Bool} {reversed results : List α} {more : List Token} {text rest : List Char}
    (spaced : Spaced (itemsTokens first items ++ more) text)
    (ran : readItems item first reversed text = .ok (results, rest)) :
    ∃ made found, results = reversed.reverse ++ made ∧ List.Forall₂ related made found ∧
      List.Forall₂ (fun tokens value => Begins tokens ∧ Takes other tokens value) others found := by
  induction each generalizing first reversed text with
  | nil =>
      obtain ⟨_, -, finished⟩ := spaced.nextItem_finished first
      rw [readItems_of_finished finished] at ran
      cases ran
      exact ⟨[], [], by rw [List.append_nil], .nil, .nil⟩
  | @cons tokens otherTokens items others one _ inductionHypothesis =>
      obtain ⟨isValue, isOther, carries⟩ := one
      rw [itemsTokens, List.append_assoc, List.append_assoc] at spaced
      obtain ⟨start, spacedItem, another⟩ := spaced.nextItem_another (isValue.begins.append _)
      obtain ⟨value, behind, ranItem, ranItems⟩ := exists_of_readItems another ran
      have closes := closes_itemsTokens items more
      obtain ⟨found, same, takes⟩ := carries closes spacedItem ranItem
      have spacedItems := skims.spaced isValue closes spacedItem ranItem
      obtain ⟨made, founds, equation, sames, taken⟩ := inductionHypothesis spacedItems ranItems
      exact ⟨value :: made, found :: founds, by simp [equation], .cons same sames,
        .cons ⟨isOther.begins, takes⟩ taken⟩

theorem carries_array {item : Reader α} {other : Reader β} (skims : item.Skims)
    {related : α → β → Prop} {items others : List (List Token)}
    (each : List.Forall₂ (fun tokens others => IsValue tokens ∧ IsValue others ∧
      Carries item other related tokens others) items others) :
    Carries (Reader.array item) (Reader.array other) (List.Forall₂ related) (arrayTokens items)
      (arrayTokens others) := by
  intro more text result rest _ spaced ran
  obtain ⟨behind, spacedItems, read⟩ := Head.exists_read_array spaced
  simp only [Reader.array, read] at ran
  obtain ⟨made, found, rfl, sames, taken⟩ := carries_readItems skims each spacedItems ran
  exact ⟨found, sames, .array taken⟩

theorem Reader.Steady.array {item : Reader α} {related : α → α → Prop}
    (steady : item.Steady related) (skims : item.Skims) :
    (Reader.array item).Steady (List.Forall₂ related) := by
  intro value isValue
  cases isValue with
  | atom isAtom =>
      intro more text result rest closes spaced ran
      simp only [Reader.array] at ran
      split at ran
      · cases ran
      · next read => exact (Head.isOf_of_read isAtom closes spaced read).2.elim
      · cases ran
  | @array items values =>
      exact carries_array skims (List.forall₂_same.mpr fun tokens listed =>
        ⟨values tokens listed, values tokens listed, steady tokens (values tokens listed)⟩)
  | object keys values =>
      intro more text result rest _ spaced ran
      obtain ⟨_, -, isObject⟩ := Head.exists_read_object spaced
      simp only [Reader.array, isObject] at ran
      cases ran

/-! ## Members -/

/-- What one state makes of a member, another that is related makes of another member. -/
structure MemberCarries (step : σ → String → Except Cause (Reader σ))
    (further : τ → String → Except Cause (Reader τ)) (kept : σ → τ → Prop)
    (member other : SpelledMember) : Prop where
  isInside : IsInside member.inside
  isValue : IsValue member.value
  inside_eq : other.inside = member.inside
  carries : ∀ (key : String) (state : σ) (next : τ) (reader : Reader σ),
    Spells member.inside key.toList → kept state next → step state key = .ok reader →
      ∃ found, further next key = .ok found ∧
        Carries reader found kept member.value other.value

/-- The members of an object are carried over one after the other. -/
theorem carries_readMembers {step : σ → String → Except Cause (Reader σ)}
    {further : τ → String → Except Cause (Reader τ)} {kept : σ → τ → Prop}
    (skims : ∀ (state : σ) (key : String) (reader : Reader σ),
      step state key = .ok reader → reader.Skims)
    {members others : List SpelledMember}
    (each : List.Forall₂ (MemberCarries step further kept) members others)
    {first : Bool} {state result : σ} {next : τ} (before : kept state next) {more : List Token}
    {text rest : List Char} (spaced : Spaced (membersTokens first members ++ more) text)
    (ran : readMembers step first state text = .ok (result, rest)) :
    ∃ found, kept result found ∧ ∀ {more : List Token} {text : List Char},
      Spaced (membersTokens first others ++ more) text →
        ∃ rest, Spaced more rest ∧ readMembers further first next text = .ok (found, rest) := by
  induction each generalizing first state next text with
  | nil =>
      obtain ⟨_, -, finished⟩ := spaced.nextKey_finished first
      rw [readMembers_of_finished finished] at ran
      cases ran
      refine ⟨next, before, fun spacedOther => ?_⟩
      obtain ⟨rest, others, finishedOther⟩ := spacedOther.nextKey_finished first
      exact ⟨rest, others, readMembers_of_finished finishedOther⟩
  | @cons member other members others one _ inductionHypothesis =>
      obtain ⟨key, reader, start, after, behind, spells, accepted, spacedValue, read, spacedMembers,
        ranMembers⟩ := exists_of_readMembers_cons skims one.isInside one.isValue spaced ran
      obtain ⟨readerOther, acceptedOther, carries⟩ :=
        one.carries key state next reader spells before accepted
      obtain ⟨afterOther, kept, takes⟩ :=
        carries (closes_membersTokens members more) spacedValue read
      obtain ⟨found, keptFound, taken⟩ := inductionHypothesis kept spacedMembers ranMembers
      refine ⟨found, keptFound, fun spacedOther => ?_⟩
      obtain ⟨further, spacedOthers, goesOn⟩ :=
        takes.readMember (one.inside_eq ▸ spells) acceptedOther spacedOther
      obtain ⟨rest, spacedRest, ranOthers⟩ := taken spacedOthers
      exact ⟨rest, spacedRest, goesOn.trans ranOthers⟩

/-! ## Values of any kind -/

theorem Reader.exists_run_value_eq (limit : Nat) :
    ∃ nested, ∀ text, (Reader.value limit).run text = readValue nested text := by
  cases limit with
  | zero => exact ⟨none, fun _ => rfl⟩
  | succ limit => exact ⟨some (Reader.value limit), fun _ => rfl⟩

/-- A value of one token opens no container. -/
theorem carries_value_atom {token : Token} (isAtom : IsAtom token) (limit other : Nat) :
    Carries (Reader.value limit) (Reader.value other) Eq [token] [token] := by
  intro more text result rest closes spaced ran
  obtain ⟨nested, run_eq⟩ := Reader.exists_run_value_eq limit
  obtain ⟨further, run_other_eq⟩ := Reader.exists_run_value_eq other
  rw [run_eq, readValue] at ran
  split at ran
  · cases ran
  all_goals
    next read =>
    obtain ⟨isOf, isScalar⟩ := Head.isOf_of_read isAtom closes spaced read
    first
      | exact isScalar.elim
      | cases ran
        refine ⟨_, rfl, fun others otherText closesOther spacedOther => ?_⟩
        obtain ⟨left, spacedLeft, readOther⟩ := isOf closesOther spacedOther
        exact ⟨left, spacedLeft, by simp only [run_other_eq, readValue, readOther]⟩

section

variable {limit deep : Nat}

theorem carries_value_array {items : List (List Token)} (each : ∀ item ∈ items, IsValue item ∧
    Carries (Reader.value limit) (Reader.value deep) Eq item item) :
    Carries (Reader.value (limit + 1)) (Reader.value (deep + 1)) Eq (arrayTokens items)
      (arrayTokens items) := by
  intro more text result rest _ spaced ran
  obtain ⟨behind, spacedItems, isArray⟩ := Head.exists_read_array spaced
  simp only [Reader.value, readValue, isArray] at ran
  split at ran
  · cases ran
  next ranItems =>
  cases ran
  have carried : List.Forall₂ (fun tokens others => IsValue tokens ∧ IsValue others ∧
      Carries (Reader.value limit) (Reader.value deep) Eq tokens others) items items :=
    List.forall₂_same.mpr fun tokens listed =>
      ⟨(each tokens listed).1, (each tokens listed).1, (each tokens listed).2⟩
  obtain ⟨made, found, rfl, same, taken⟩ :=
    carries_readItems (.value limit) carried spacedItems ranItems
  rw [List.forall₂_eq_eq_eq] at same
  subst same
  refine ⟨_, rfl, fun others otherText _ spacedOther => ?_⟩
  obtain ⟨start, spacedOthers, isArrayOther⟩ := Head.exists_read_array spacedOther
  obtain ⟨left, spacedLeft, ranOther⟩ := Takes.readItems taken [] spacedOthers
  exact ⟨left, spacedLeft, by simp only [Reader.value, readValue, isArrayOther, ranOther]; rfl⟩

theorem memberCarries_value {member : SpelledMember} (isInside : IsInside member.inside)
    (isValue : IsValue member.value)
    (carries : Carries (Reader.value limit) (Reader.value deep) Eq member.value member.value) :
    MemberCarries (fun members key => .ok ((Reader.value limit).map (Members.insert key · members)))
      (fun members key => .ok ((Reader.value deep).map (Members.insert key · members))) Eq
      member member where
  isInside := isInside
  isValue := isValue
  inside_eq := rfl
  carries := by
    rintro key state next reader - rfl accepted
    cases accepted
    exact ⟨_, rfl, carries.map fun _ _ same => congrArg (Members.insert key · state) same⟩

theorem carries_value_object {members : List SpelledMember}
    (keys : ∀ member ∈ members, IsInside member.inside)
    (each : ∀ member ∈ members, IsValue member.value ∧
      Carries (Reader.value limit) (Reader.value deep) Eq member.value member.value) :
    Carries (Reader.value (limit + 1)) (Reader.value (deep + 1)) Eq (objectTokens members)
      (objectTokens members) := by
  intro more text result rest _ spaced ran
  obtain ⟨behind, spacedMembers, isObject⟩ := Head.exists_read_object spaced
  simp only [Reader.value, readValue, isObject] at ran
  split at ran
  · cases ran
  next ranMembers =>
  cases ran
  have carried := List.forall₂_same.mpr fun member listed =>
    memberCarries_value (keys member listed) (each member listed).1 (each member listed).2
  have skims : ∀ (state : Members) (key : String) (reader : Reader Members),
      .ok ((Reader.value limit).map (Members.insert key · state)) =
        (.ok reader : Except Cause (Reader Members)) → reader.Skims := by
    rintro state key reader ⟨⟩
    exact (Reader.Skims.value limit).map _
  obtain ⟨found, rfl, taken⟩ := carries_readMembers skims carried rfl spacedMembers ranMembers
  refine ⟨_, rfl, fun others otherText _ spacedOther => ?_⟩
  obtain ⟨start, spacedOthers, isObjectOther⟩ := Head.exists_read_object spacedOther
  obtain ⟨left, spacedLeft, ranOther⟩ := taken spacedOthers
  exact ⟨left, spacedLeft, by simp only [Reader.value, readValue, isObjectOther, ranOther]⟩

end

/-- Without a reader of what is nested an array is not read. -/
theorem carries_value_zero_array (deep : Nat) (items : List (List Token)) :
    Carries (Reader.value 0) (Reader.value deep) Eq (arrayTokens items) (arrayTokens items) := by
  intro more text result rest _ spaced ran
  obtain ⟨_, -, isArray⟩ := Head.exists_read_array spaced
  simp only [Reader.value, readValue, isArray] at ran
  cases ran

/-- Without a reader of what is nested an object is not read. -/
theorem carries_value_zero_object (deep : Nat) (members : List SpelledMember) :
    Carries (Reader.value 0) (Reader.value deep) Eq (objectTokens members)
      (objectTokens members) := by
  intro more text result rest _ spaced ran
  obtain ⟨_, -, isObject⟩ := Head.exists_read_object spaced
  simp only [Reader.value, readValue, isObject] at ran
  cases ran

/-- A value is read as the same in every layout, by every reader that follows containers as
deeply. -/
theorem carries_value {limit : Nat} {value : List Token} (isValue : IsValue value) {deep : Nat}
    (deeper : limit ≤ deep) : Carries (Reader.value limit) (Reader.value deep) Eq value value := by
  -- The first reader may stop before the value ends, so the induction is on its limit.
  induction limit generalizing value deep with
  | zero =>
      cases isValue with
      | atom isAtom => exact carries_value_atom isAtom 0 deep
      | array values => exact carries_value_zero_array deep _
      | object keys values => exact carries_value_zero_object deep _
  | succ limit inductionHypothesis =>
      obtain _ | deep := deep
      · exact absurd deeper (Nat.not_succ_le_zero limit)
      have nested := Nat.le_of_succ_le_succ deeper
      cases isValue with
      | atom isAtom => exact carries_value_atom isAtom _ _
      | array values =>
          exact carries_value_array fun item listed =>
            ⟨values item listed, inductionHypothesis (values item listed) nested⟩
      | object keys values =>
          exact carries_value_object keys fun member listed =>
            ⟨values member listed, inductionHypothesis (values member listed) nested⟩

/-- A value that was read is read by every reader that follows containers as deeply as it nests
them. -/
theorem NestsWithin.carries_value {deep : Nat} {value : List Token} (nests : NestsWithin deep value)
    (limit : Nat) : Carries (Reader.value limit) (Reader.value deep) Eq value value := by
  -- The value bounds what the second reader has to follow, so the induction is on its nesting.
  induction nests generalizing limit with
  | atom isAtom => exact carries_value_atom isAtom limit _
  | array values inductionHypothesis =>
      cases limit with
      | zero => exact carries_value_zero_array _ _
      | succ limit =>
          exact carries_value_array fun item listed =>
            ⟨(values item listed).isValue, inductionHypothesis item listed limit⟩
  | object keys values inductionHypothesis =>
      cases limit with
      | zero => exact carries_value_zero_object _ _
      | succ limit =>
          exact carries_value_object keys fun member listed =>
            ⟨(values member listed).isValue, inductionHypothesis member listed limit⟩

end MotionSteps.Json
