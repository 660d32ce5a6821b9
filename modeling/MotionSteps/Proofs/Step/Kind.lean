import MotionSteps.Proofs.Json.RoundTrip
import MotionSteps.Proofs.Text.Uppercase
import MotionSteps.Step.Kind

/-!
# Names of kinds

The name under which a kind stands in a program is a label of that kind. For the known kinds
it is one of the aliases. The name of any other kind is a label that was trimmed and put in
capitals, which doing so again does not change. So a kind that a label means survives being
written, and its name tells it from every other.
-/

namespace MotionSteps.StepKind

theorem foldLabel_foldLabel (label : String) : foldLabel (foldLabel label) = foldLabel label :=
  Text.uppercase_trim_uppercase_trim label

theorem ofLabel_name_of_mem_aliases : ∀ entry ∈ aliases, ofLabel entry.2.name = entry.2 := by
  decide +kernel

theorem isKnown_of_mem_aliases : ∀ entry ∈ aliases, entry.2.isKnown = true := by
  decide

/-- A label is an alias of the known kind that it means, or it means an unknown kind. -/
theorem ofLabel_cases (label : String) :
    (∃ entry ∈ aliases, entry.1 = foldLabel label ∧ ofLabel label = entry.2) ∨
      (∀ entry ∈ aliases, entry.1 ≠ foldLabel label) ∧
        ofLabel label = .other (foldLabel label) := by
  cases found : aliases.find? fun entry => entry.1 == foldLabel label with
  | some entry =>
      have named : entry.1 = foldLabel label := by simpa using List.find?_some found
      exact .inl ⟨entry, List.mem_of_find?_eq_some found, named, by simp only [ofLabel, found]⟩
  | none =>
      have free : ∀ entry ∈ aliases, entry.1 ≠ foldLabel label := by
        simpa using List.find?_eq_none.mp found
      exact .inr ⟨free, by simp only [ofLabel, found]⟩

/-- The name of the kind that a label means is a label of that kind. -/
theorem ofLabel_name_ofLabel (label : String) : ofLabel (ofLabel label).name = ofLabel label := by
  rcases ofLabel_cases label with ⟨entry, listed, -, kind⟩ | ⟨free, kind⟩
  · rw [kind]
    exact ofLabel_name_of_mem_aliases entry listed
  · rw [kind, name]
    rcases ofLabel_cases (foldLabel label) with ⟨entry, listed, named, -⟩ | ⟨-, again⟩
    · rw [foldLabel_foldLabel] at named
      exact absurd named (free entry listed)
    · rw [again, foldLabel_foldLabel]

/-- A label means an unknown kind exactly if it is compared as the name of that kind, and this
is no alias. -/
theorem ofLabel_eq_other_iff {label name : String} :
    ofLabel label = .other name ↔ foldLabel label = name ∧ ∀ entry ∈ aliases, entry.1 ≠ name := by
  rcases ofLabel_cases label with ⟨entry, listed, named, kind⟩ | ⟨free, kind⟩
  · have known := isKnown_of_mem_aliases entry listed
    rw [kind]
    constructor
    · intro other
      rw [other] at known
      cases known
    · rintro ⟨same, free⟩
      exact absurd (named.trans same) (free entry listed)
  · rw [kind, StepKind.other.injEq]
    constructor
    · rintro rfl
      exact ⟨rfl, free⟩
    · exact And.left

/-- A name that an unknown kind may have: it is trimmed and in capitals, and no known kind goes
by it. -/
structure IsFree (name : String) : Prop where
  trimmed : Text.trim name = name
  capital : Text.uppercase name = name
  noAlias : ∀ entry ∈ aliases, entry.1 ≠ name

/-- The names of unknown kinds are exactly the free ones. -/
theorem exists_ofLabel_eq_other_iff {name : String} :
    (∃ label, ofLabel label = .other name) ↔ IsFree name := by
  constructor
  · rintro ⟨label, kind⟩
    obtain ⟨rfl, noAlias⟩ := ofLabel_eq_other_iff.mp kind
    exact ⟨Text.trim_uppercase_trim label, Text.uppercase_uppercase _, noAlias⟩
  · intro free
    refine ⟨name, ofLabel_eq_other_iff.mpr ⟨?_, free.noAlias⟩⟩
    rw [foldLabel, free.trimmed, free.capital]

/-- A label is read as the kind that it means. -/
theorem reads_label (label : String) : Json.Reads reader (.string label) (ofLabel label) :=
  (Json.Reads.string label).map ofLabel

/-- The kind that a label means is what its own name means, and it is read back from its JSON
text. It has a name of its own only if the name is free, and two such kinds have one name only
if they are the same. -/
theorem ofLabel_isNormal (label : String) :
    ofLabel (ofLabel label).name = ofLabel label ∧
      reader.parse (ofLabel label).toJson.compact = .ok (ofLabel label) ∧
      reader.parse (ofLabel label).toJson.pretty = .ok (ofLabel label) ∧
      (∀ name, ofLabel label = .other name → IsFree name) ∧
      ∀ other, (ofLabel label).name = (ofLabel other).name ↔ ofLabel label = ofLabel other := by
  have again := ofLabel_name_ofLabel label
  have reads : Json.Reads reader (ofLabel label).toJson (ofLabel label) := by
    have named := reads_label (ofLabel label).name
    rwa [again] at named
  refine ⟨again, reads.parse_compact, reads.parse_pretty,
    fun name kind => exists_ofLabel_eq_other_iff.mp ⟨label, kind⟩, fun other => ⟨?_, ?_⟩⟩
  · intro named
    rw [← again, named, ofLabel_name_ofLabel]
  · exact congrArg name

/-- A letter may have two letters for its capital. -/
example : ofLabel "\u2003homing straße " = .other "HOMING STRASSE" := by decide +kernel

end MotionSteps.StepKind
