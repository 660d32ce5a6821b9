import Mathlib.Data.List.Nodup
import MotionSteps.Proofs.Program.Linked
import MotionSteps.Response

/-!
# Identifiers of ingested programs

A generated step keeps the identifier that it gives. One that gives none, or a blank one,
gets the identifier of its position, which the step at another position may have given
already. `ids_nodup_iff` says exactly when all identifiers are distinct: when the given
ones are, and none of them is the one to be filled in. `ids_of_ingest` carries this over
to programs, with what distinct identifiers are good for.
-/

namespace MotionSteps.Response

/-- The generated program in a response, before it is put into the proper form. -/
def read (text : String) : Except Failure GeneratedSequence := do
  let span ← object text
  (GeneratedSequence.form.reader.parse span).mapError Failure.response

/-- What is ingested was read and then put into the proper form. -/
theorem ingest_eq (text : String) (settings : Settings) :
    ingest text settings = (read text).map fun generated => generated.toSequence settings := by
  simp only [ingest, read, bind, Except.bind]
  cases object text with
  | error failure => rfl
  | ok span =>
      dsimp only
      cases (GeneratedSequence.form.reader.parse span).mapError Failure.response <;> rfl

theorem exists_read_of_ingest {text : String} {settings : Settings} {sequence : Sequence}
    (ingested : ingest text settings = .ok sequence) :
    ∃ generated, read text = .ok generated ∧ generated.toSequence settings = sequence := by
  rw [ingest_eq] at ingested
  cases found : read text with
  | error failure => rw [found] at ingested; cases ingested
  | ok generated =>
      rw [found] at ingested
      exact ⟨generated, rfl, Except.ok.inj ingested⟩

theorem exists_span_of_read {text : String} {generated : GeneratedSequence}
    (found : read text = .ok generated) :
    ∃ span, object text = .ok span ∧
      GeneratedSequence.form.reader.parse span = .ok generated := by
  simp only [read, bind, Except.bind] at found
  split at found
  · cases found
  · next span there =>
      refine ⟨span, there, ?_⟩
      cases parsed : GeneratedSequence.form.reader.parse span with
      | error failure => rw [parsed] at found; cases found
      | ok value =>
          rw [parsed] at found
          cases found
          rfl

/-- Whether a generated step gives an identifier that is not blank. -/
def GeneratedStep.givesId (step : GeneratedStep) : Bool :=
  !(Text.trim step.id).isEmpty

theorem GeneratedStep.resolvedId_of_givesId {step : GeneratedStep} (given : step.givesId = true)
    (position : Nat) : step.resolvedId position = step.id := by
  have notBlank : (Text.trim step.id).isEmpty = false := by simpa [givesId] using given
  simp [resolvedId, notBlank]

theorem GeneratedStep.resolvedId_of_not_givesId {step : GeneratedStep}
    (missing : ¬ step.givesId = true) (position : Nat) :
    step.resolvedId position = stepId position := by
  have blank : (Text.trim step.id).isEmpty = true := by simpa [givesId] using missing
  simp [resolvedId, blank]

namespace GeneratedSequence

variable (sequence : GeneratedSequence)

/-- The identifiers given in a generated program that are not blank, in order. -/
def givenIds : List String :=
  (sequence.steps.filter GeneratedStep.givesId).map GeneratedStep.id

/-- No step gives the identifier that is filled in for another one. -/
def FilledIdsFree : Prop :=
  ∀ (position : Nat) (step : GeneratedStep), sequence.steps[position]? = some step →
    step.givesId = false → stepId position ∉ sequence.givenIds

variable {sequence}

theorem ids_getElem? (position : Nat) :
    sequence.ids[position]? =
      sequence.steps[position]?.map fun step => step.resolvedId position := by
  rw [ids, List.getElem?_map, List.getElem?_zipIdx, Nat.zero_add]
  cases sequence.steps[position]? <;> rfl

theorem mem_givenIds_iff {id : String} :
    id ∈ sequence.givenIds ↔
      ∃ (position : Nat) (step : GeneratedStep), sequence.steps[position]? = some step ∧
        step.givesId = true ∧ step.id = id := by
  rw [givenIds, List.mem_map]
  constructor
  · rintro ⟨step, member, rfl⟩
    obtain ⟨listed, given⟩ := List.mem_filter.mp member
    obtain ⟨position, there⟩ := List.mem_iff_getElem?.mp listed
    exact ⟨position, step, there, given, rfl⟩
  · rintro ⟨position, step, there, given, rfl⟩
    exact ⟨step, List.mem_filter.mpr ⟨List.mem_of_getElem? there, given⟩, rfl⟩

/-- The given identifiers are distinct when those of any two steps are that give one. -/
theorem givenIds_nodup_iff :
    sequence.givenIds.Nodup ↔
      ∀ (first second : Nat) (firstStep secondStep : GeneratedStep), first < second →
        sequence.steps[first]? = some firstStep → sequence.steps[second]? = some secondStep →
        firstStep.givesId = true → secondStep.givesId = true → firstStep.id ≠ secondStep.id := by
  rw [givenIds, List.Nodup, List.pairwise_map, List.pairwise_filter, List.pairwise_iff_getElem]
  simp only [List.getElem?_eq_some_iff]
  constructor
  · rintro distinct first second _ _ earlier ⟨firstInside, rfl⟩ ⟨secondInside, rfl⟩
    exact distinct first second firstInside secondInside earlier
  · intro distinct first second firstInside secondInside earlier
    exact distinct first second _ _ earlier ⟨firstInside, rfl⟩ ⟨secondInside, rfl⟩

theorem ids_nodup_iff_positions :
    sequence.ids.Nodup ↔
      ∀ (first second : Nat) (firstStep secondStep : GeneratedStep), first < second →
        sequence.steps[first]? = some firstStep → sequence.steps[second]? = some secondStep →
        firstStep.resolvedId first ≠ secondStep.resolvedId second := by
  rw [ids, List.Nodup, List.pairwise_map, List.pairwise_iff_getElem]
  simp only [List.getElem?_eq_some_iff, List.getElem_zipIdx, List.length_zipIdx, Nat.zero_add]
  constructor
  · rintro distinct first second _ _ earlier ⟨firstInside, rfl⟩ ⟨secondInside, rfl⟩
    exact distinct first second firstInside secondInside earlier
  · intro distinct first second firstInside secondInside earlier
    exact distinct first second _ _ earlier ⟨firstInside, rfl⟩ ⟨secondInside, rfl⟩

/-- The identifiers of a generated program are distinct exactly when the given ones are
and none of them is filled in for a step that gives none. -/
theorem ids_nodup_iff : sequence.ids.Nodup ↔ sequence.givenIds.Nodup ∧ sequence.FilledIdsFree := by
  rw [ids_nodup_iff_positions, givenIds_nodup_iff]
  constructor
  · intro distinct
    refine ⟨?_, ?_⟩
    · intro first second firstStep secondStep earlier firstThere secondThere firstGiven secondGiven
      have apart := distinct first second firstStep secondStep earlier firstThere secondThere
      rwa [GeneratedStep.resolvedId_of_givesId firstGiven,
        GeneratedStep.resolvedId_of_givesId secondGiven] at apart
    · intro position step there missing taken
      obtain ⟨other, otherStep, otherThere, given, same⟩ := mem_givenIds_iff.mp taken
      have filled := GeneratedStep.resolvedId_of_not_givesId (ne_true_of_eq_false missing) position
      have kept := GeneratedStep.resolvedId_of_givesId given other
      rcases Nat.lt_trichotomy position other with earlier | rfl | later
      · exact distinct position other step otherStep earlier there otherThere
          (filled.trans (kept.trans same).symm)
      · obtain rfl : step = otherStep := Option.some.inj (there.symm.trans otherThere)
        rw [missing] at given
        cases given
      · exact distinct other position otherStep step later otherThere there
          ((kept.trans same).trans filled.symm)
  · rintro ⟨distinct, free⟩ first second firstStep secondStep earlier firstThere secondThere
    -- Two given identifiers, two that are filled in, or one of each.
    by_cases firstGiven : firstStep.givesId = true <;>
      by_cases secondGiven : secondStep.givesId = true
    · rw [GeneratedStep.resolvedId_of_givesId firstGiven,
        GeneratedStep.resolvedId_of_givesId secondGiven]
      exact distinct first second _ _ earlier firstThere secondThere firstGiven secondGiven
    · rw [GeneratedStep.resolvedId_of_givesId firstGiven,
        GeneratedStep.resolvedId_of_not_givesId secondGiven]
      intro same
      exact free second secondStep secondThere (by simpa using secondGiven)
        (mem_givenIds_iff.mpr ⟨first, firstStep, firstThere, firstGiven, same⟩)
    · rw [GeneratedStep.resolvedId_of_not_givesId firstGiven,
        GeneratedStep.resolvedId_of_givesId secondGiven]
      intro same
      exact free first firstStep firstThere (by simpa using firstGiven)
        (mem_givenIds_iff.mpr ⟨second, secondStep, secondThere, secondGiven, same.symm⟩)
    · rw [GeneratedStep.resolvedId_of_not_givesId firstGiven,
        GeneratedStep.resolvedId_of_not_givesId secondGiven]
      intro same
      exact Nat.ne_of_lt earlier (stepId_injective same)

end GeneratedSequence

/-! ## Programs -/

namespace GeneratedSequence

variable {sequence : GeneratedSequence} {settings : Settings}

theorem toSequence_getElem? (position : Nat) :
    (sequence.toSequence settings).steps[position]? =
      sequence.steps[position]?.map fun step =>
        { id := step.resolvedId position
          kind := StepKind.ofLabel step.typeLabel
          params := step.resolvedParams (StepKind.ofLabel step.typeLabel)
          next := step.next.or sequence.ids[position + 1]? } := by
  simp only [toSequence, List.getElem?_map, List.getElem?_zipIdx, Nat.zero_add]
  cases sequence.steps[position]? <;> rfl

theorem map_id_toSequence :
    (sequence.toSequence settings).steps.map Step.id = sequence.ids := by
  apply List.ext_getElem?
  intro position
  rw [List.getElem?_map, ids_getElem? position, toSequence_getElem?, Option.map_map]
  rfl

/-- A step whose follower is filled in does not follow itself if the identifiers are
distinct. -/
theorem filled_next_ne (distinct : sequence.ids.Nodup) {position : Nat} {given : GeneratedStep}
    {step : Step} (givenThere : sequence.steps[position]? = some given)
    (there : (sequence.toSequence settings).steps[position]? = some step)
    (unnamed : given.next = none) : step.next ≠ some step.id := by
  rw [toSequence_getElem?, givenThere] at there
  obtain rfl := Option.some.inj there
  simp only [unnamed, Option.none_or]
  intro same
  rw [ids_getElem?, Option.map_eq_some_iff] at same
  obtain ⟨following, followingThere, same⟩ := same
  exact ids_nodup_iff_positions.mp distinct position (position + 1) given following
    (Nat.lt_succ_self position) givenThere followingThere same.symm

end GeneratedSequence

/-- The identifiers of an ingested program are those given in the response and those filled
in for the others. They are distinct exactly when the given ones are and none of them is
filled in for another step. Then a look-up of the identifier of a step finds that step, and
no step whose follower is filled in follows itself. -/
theorem ids_of_ingest {text : String} {settings : Settings} {sequence : Sequence}
    (ingested : ingest text settings = .ok sequence) :
    ∃ generated, read text = .ok generated ∧
      sequence.steps.map Step.id = generated.ids ∧
      ((sequence.steps.map Step.id).Nodup ↔
        generated.givenIds.Nodup ∧ generated.FilledIdsFree) ∧
      (generated.givenIds.Nodup → generated.FilledIdsFree →
        (∀ step ∈ sequence.steps, sequence.step? step.id = some step) ∧
        ∀ (position : Nat) (given : GeneratedStep) (step : Step),
          generated.steps[position]? = some given → sequence.steps[position]? = some step →
          given.next = none → step.next ≠ some step.id) := by
  obtain ⟨generated, found, rfl⟩ := exists_read_of_ingest ingested
  refine ⟨generated, found, GeneratedSequence.map_id_toSequence, ?_, ?_⟩
  · rw [GeneratedSequence.map_id_toSequence, GeneratedSequence.ids_nodup_iff]
  · intro givenDistinct free
    have distinct := GeneratedSequence.ids_nodup_iff.mpr ⟨givenDistinct, free⟩
    refine ⟨?_, ?_⟩
    · intro step member
      rw [← GeneratedSequence.map_id_toSequence] at distinct
      exact find?_of_nodup_map distinct member
    · intro position given step givenThere there unnamed
      exact GeneratedSequence.filled_next_ne distinct givenThere there unnamed

/-- A response whose first step gives an identifier and whose second step gives none. -/
def mixedResponse : String :=
  "Here: \x7b\"steps\":[\x7b\"id\":\"first\",\"type\":\"START\"\x7d,\x7b\"type\":\"END\"\x7d]\x7d"

theorem ids_of_mixedResponse :
    ∃ sequence, ingest mixedResponse {} = .ok sequence ∧
      sequence.steps.map Step.id = ["first", "node_02"] ∧
      ∃ generated, read mixedResponse = .ok generated ∧
        ((sequence.steps.map Step.id).Nodup ↔
          generated.givenIds.Nodup ∧ generated.FilledIdsFree) := by
  have ids : ((ingest mixedResponse {}).toOption.map fun sequence => sequence.steps.map Step.id) =
      some ["first", "node_02"] := by decide +kernel
  cases ingested : ingest mixedResponse {} with
  | error failure => rw [ingested] at ids; cases ids
  | ok sequence =>
      rw [ingested] at ids
      obtain ⟨generated, found, -, distinct, -⟩ := ids_of_ingest ingested
      exact ⟨sequence, rfl, Option.some.inj ids, generated, found, distinct⟩

/-- A response whose first step gives the identifier of the second position. -/
def clashingResponse : String :=
  "\x7b\"steps\":[\x7b\"id\":\"node_02\",\"type\":\"START\"\x7d,\x7b\"type\":\"END\"\x7d]\x7d"

/-- Distinct given identifiers are not enough: the one that is filled in for the second
step is that of the first, which therefore follows itself. -/
theorem clash_of_filled_id :
    ∃ generated sequence, read clashingResponse = .ok generated ∧
      generated.givenIds.Nodup ∧ ingest clashingResponse {} = .ok sequence ∧
      ¬ (sequence.steps.map Step.id).Nodup ∧
      ∃ step, sequence.steps.head? = some step ∧ step.next = some step.id := by
  have given : ((read clashingResponse).toOption.map GeneratedSequence.givenIds) =
      some ["node_02"] := by decide +kernel
  have links : ((ingest clashingResponse {}).toOption.map fun sequence =>
      sequence.steps.map fun step => (step.id, step.next)) =
        some [("node_02", some "node_02"), ("node_02", none)] := by decide +kernel
  cases ingested : ingest clashingResponse {} with
  | error failure => rw [ingested] at links; cases links
  | ok sequence =>
      obtain ⟨generated, found, -⟩ := exists_read_of_ingest ingested
      rw [ingested] at links
      rw [found] at given
      replace links : (sequence.steps.map fun step => (step.id, step.next)) =
          [("node_02", some "node_02"), ("node_02", none)] := Option.some.inj links
      replace given : generated.givenIds = ["node_02"] := Option.some.inj given
      have ids : sequence.steps.map Step.id = ["node_02", "node_02"] := by
        have firsts := congrArg (List.map Prod.fst) links
        rwa [List.map_map] at firsts
      refine ⟨generated, sequence, found, by simp [given], rfl, by simp [ids], ?_⟩
      cases steps : sequence.steps with
      | nil => rw [steps] at links; cases links
      | cons step rest =>
          rw [steps, List.map_cons, List.cons.injEq, Prod.mk.injEq] at links
          exact ⟨step, rfl, links.1.2.trans (congrArg some links.1.1.symm)⟩

end MotionSteps.Response
