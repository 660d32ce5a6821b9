import Mathlib.Data.List.Infix
import Mathlib.Data.List.TakeWhile
import MotionSteps.Response

/-!
# The object in a response

The object of a response is the longest part of its text that begins with an opening brace and
ends with a closing one. There is one exactly when some opening brace stands before some closing
one, and every other part between braces lies inside it. So text in front that has no opening
brace and text behind that has no closing one make no difference: `ingest_of_surrounded` gives
the same program, or the same failure with the same message, whatever braces of the other kind
the prose holds.
-/

namespace MotionSteps.Response

/-- A text from an opening brace to a closing one. -/
structure Braced (span : List Char) : Prop where
  opens : span.head? = some '\x7b'
  closes : span.getLast? = some '\x7d'

/-- Some opening brace of a text stands before some closing one. -/
def HoldsBraces (text : List Char) : Prop :=
  ∃ before inside behind, text = before ++ '\x7b' :: (inside ++ '\x7d' :: behind)

/-- A part of a text between braces that is longer than every other. -/
structure LongestBraced (span text : List Char) : Prop where
  braced : Braced span
  within : span <:+: text
  longest : ∀ other, Braced other → other <:+: text → other ≠ span → other.length < span.length

section

variable {before span behind text : List Char}

theorem Braced.exists_eq (braced : Braced span) :
    ∃ inside, span = '\x7b' :: (inside ++ ['\x7d']) := by
  obtain ⟨front, rfl⟩ := List.getLast?_eq_some_iff.mp braced.closes
  have opens := braced.opens
  cases front with
  | nil => simp at opens
  | cons first inside =>
      obtain rfl : first = '\x7b' := by simpa using opens
      exact ⟨inside, rfl⟩

theorem braced_braces (inside : List Char) : Braced ('\x7b' :: (inside ++ ['\x7d'])) where
  opens := rfl
  closes := by rw [← List.cons_append, List.getLast?_concat]

/-! ## Prose -/

/-- Prose without an opening brace in front and prose without a closing one behind are left
out. -/
theorem objectChars_append (noOpening : '\x7b' ∉ before) (noClosing : '\x7d' ∉ behind)
    (text : List Char) : objectChars (before ++ text ++ behind) = objectChars text := by
  have skipped : ∀ c ∈ before, (c != '\x7b') = true := by
    intro c member
    exact bne_iff_ne.mpr fun same => noOpening (same ▸ member)
  have dropped : ∀ c ∈ behind.reverse, (c != '\x7d') = true := by
    intro c member
    exact bne_iff_ne.mpr fun same => noClosing (same ▸ List.mem_reverse.mp member)
  rw [objectChars, List.append_assoc, List.dropWhile_append_of_pos skipped, List.dropWhile_append]
  split
  · next nothing =>
      -- The text has no opening brace, and a closing one does not follow on those behind it.
      have fewer : ∀ c ∈ (behind.dropWhile (· != '\x7b')).reverse, (c != '\x7d') = true := by
        intro c member
        refine dropped c (List.mem_reverse.mpr ?_)
        exact (List.dropWhile_sublist _).mem (List.mem_reverse.mp member)
      rw [List.dropWhile_eq_nil_iff.mpr fewer, objectChars, List.isEmpty_iff.mp nothing]
      rfl
  · rw [List.reverse_append, List.dropWhile_append_of_pos dropped, objectChars]

/-- A text is taken from its first opening brace to its last closing one. -/
theorem objectChars_of_braced (noOpening : '\x7b' ∉ before) (noClosing : '\x7d' ∉ behind)
    (braced : Braced span) : objectChars (before ++ span ++ behind) = span := by
  obtain ⟨inside, rfl⟩ := braced.exists_eq
  rw [objectChars_append noOpening noClosing]
  simp [objectChars]

/-! ## The longest part between braces -/

/-- The last place of a character in a text. -/
theorem exists_last {c : Char} (member : c ∈ text) :
    ∃ before behind, text = before ++ c :: behind ∧ c ∉ behind := by
  obtain ⟨behind, before, split, fresh⟩ :=
    List.eq_append_cons_of_mem (List.mem_reverse.mpr member)
  refine ⟨before.reverse, behind.reverse, ?_, mt List.mem_reverse.mp fresh⟩
  rw [← List.reverse_reverse text, split]
  simp

/-- A text with braces in order is prose without an opening brace, a part between braces, and
prose without a closing brace. -/
theorem HoldsBraces.exists_outermost (holds : HoldsBraces text) :
    ∃ before span behind, text = before ++ span ++ behind ∧ '\x7b' ∉ before ∧ '\x7d' ∉ behind ∧
      Braced span := by
  obtain ⟨before, inside, behind, rfl⟩ := holds
  obtain ⟨front, middle, opening, noOpening⟩ :=
    List.eq_append_cons_of_mem (show '\x7b' ∈ before ++ ['\x7b'] by simp)
  obtain ⟨inner, back, closing, noClosing⟩ :=
    exists_last (show '\x7d' ∈ middle ++ (inside ++ '\x7d' :: behind) by simp)
  refine ⟨front, '\x7b' :: (inner ++ ['\x7d']), back, ?_, noOpening, noClosing,
    braced_braces inner⟩
  calc
    before ++ '\x7b' :: (inside ++ '\x7d' :: behind)
      = (before ++ ['\x7b']) ++ (inside ++ '\x7d' :: behind) := by simp
    _ = front ++ '\x7b' :: (middle ++ (inside ++ '\x7d' :: behind)) := by rw [opening]; simp
    _ = front ++ '\x7b' :: (inner ++ ['\x7d']) ++ back := by rw [closing]; simp

/-- A part between braces does not begin in prose that has no opening brace. -/
theorem Braced.isInfix_of_before (braced : Braced span) (noOpening : '\x7b' ∉ before)
    (within : span <:+: before ++ text) : span <:+: text := by
  obtain ⟨inside, rfl⟩ := braced.exists_eq
  obtain inBefore | inText | ⟨front, back, split, inBefore, inText⟩ :=
    List.infix_append_iff.mp within
  · exact absurd (inBefore.subset List.mem_cons_self) noOpening
  · exact inText
  · cases front with
    | nil => exact split ▸ inText.isInfix
    | cons first front =>
        obtain ⟨rfl, -⟩ := List.cons.inj split
        exact absurd (inBefore.subset List.mem_cons_self) noOpening

/-- A part between braces does not end in prose that has no closing brace. -/
theorem Braced.isInfix_of_behind (braced : Braced span) (noClosing : '\x7d' ∉ behind)
    (within : span <:+: text ++ behind) : span <:+: text := by
  have closes := braced.closes
  obtain inText | inBehind | ⟨front, back, rfl, inText, inBehind⟩ :=
    List.infix_append_iff.mp within
  · exact inText
  · exact absurd (inBehind.subset (List.mem_of_getLast? closes)) noClosing
  · rcases List.eq_nil_or_concat back with rfl | ⟨back, last, rfl⟩
    · exact (List.append_nil front).symm ▸ inText.isInfix
    · obtain rfl : last = '\x7d' := by simpa using closes
      exact absurd (inBehind.subset (by simp)) noClosing

/-- What is left when such prose is taken off is longer than every other part between braces. -/
theorem Braced.longestBraced (braced : Braced span) (noOpening : '\x7b' ∉ before)
    (noClosing : '\x7d' ∉ behind) : LongestBraced span (before ++ span ++ behind) where
  braced := braced
  within := ⟨before, behind, rfl⟩
  longest other otherBraced within different := by
    have inside : other <:+: span :=
      otherBraced.isInfix_of_before noOpening (otherBraced.isInfix_of_behind noClosing within)
    exact lt_of_le_of_ne inside.length_le fun same => different (inside.eq_of_length same)

/-- A text has one longest part between braces at most. -/
theorem LongestBraced.eq {other : List Char} (first : LongestBraced span text)
    (second : LongestBraced other text) : span = other := by
  by_contra different
  have shorter := first.longest other second.braced second.within (Ne.symm different)
  have longer := second.longest span first.braced first.within different
  omega

theorem LongestBraced.holdsBraces (longest : LongestBraced span text) : HoldsBraces text := by
  obtain ⟨before, behind, rfl⟩ := longest.within
  obtain ⟨inside, rfl⟩ := longest.braced.exists_eq
  exact ⟨before, inside, behind, by simp⟩

/-- The part of a text from its first opening brace to its last closing one is the longest one
between braces. -/
theorem HoldsBraces.longestBraced_objectChars (holds : HoldsBraces text) :
    LongestBraced (objectChars text) text := by
  obtain ⟨before, span, behind, rfl, noOpening, noClosing, braced⟩ := holds.exists_outermost
  rw [objectChars_of_braced noOpening noClosing braced]
  exact braced.longestBraced noOpening noClosing

/-- Without an opening brace before a closing one there is nothing to take. -/
theorem objectChars_eq_nil (bare : ¬HoldsBraces text) : objectChars text = [] := by
  by_cases opening : '\x7b' ∈ text
  · obtain ⟨before, behind, rfl, noOpening⟩ := List.eq_append_cons_of_mem opening
    have noClosing : '\x7d' ∉ behind := by
      intro closing
      obtain ⟨inside, others, rfl⟩ := List.append_of_mem closing
      exact bare ⟨before, inside, others, rfl⟩
    exact List.append_cons .. ▸ objectChars_append noOpening noClosing ['\x7b']
  · simpa [objectChars] using objectChars_append opening (List.not_mem_nil) []

end

/-! ## Ingestion -/

theorem object_eq_ok_iff (text span : String) :
    object text = .ok span ↔ LongestBraced span.toList text.toList := by
  by_cases holds : HoldsBraces text.toList
  · have longest := holds.longestBraced_objectChars
    have taken : object text = .ok (String.ofList (objectChars text.toList)) := by
      unfold object
      split
      · next nothing => simpa [nothing] using longest.braced.opens
      · rfl
    rw [taken, Except.ok.injEq]
    constructor
    · rintro rfl
      simpa using longest
    · intro other
      rw [longest.eq other, String.ofList_toList]
  · rw [object, objectChars_eq_nil holds]
    simp only [reduceCtorEq, false_iff]
    exact fun longest => holds longest.holdsBraces

theorem object_of_not_holdsBraces {text : String} (bare : ¬HoldsBraces text.toList) :
    object text = .error .noObject := by
  rw [object, objectChars_eq_nil bare]

/-- Prose around a text without an opening brace in front and without a closing one behind
leaves the program, or the failure, as it is. The object of a text is the longest part of it
between braces; there is one exactly when an opening brace stands before a closing one. -/
theorem ingest_of_surrounded {before behind : String} (noOpening : '\x7b' ∉ before.toList)
    (noClosing : '\x7d' ∉ behind.toList) (text : String) (settings : Settings) :
    ingest (before ++ text ++ behind) settings = ingest text settings ∧
      ((∃ span, object text = .ok span) ↔ HoldsBraces text.toList) ∧
      (∀ span, object text = .ok span ↔ LongestBraced span.toList text.toList) ∧
      (¬HoldsBraces text.toList →
        ∃ failure, object text = .error failure ∧ failure.code = "I001") := by
  have same : object (before ++ text ++ behind) = object text := by
    simp only [object, String.toList_append, objectChars_append noOpening noClosing]
  refine ⟨by rw [ingest, same, ingest], ?_, object_eq_ok_iff text, ?_⟩
  · constructor
    · rintro ⟨span, taken⟩
      exact ((object_eq_ok_iff text span).mp taken).holdsBraces
    · intro holds
      refine ⟨String.ofList (objectChars text.toList), (object_eq_ok_iff ..).mpr ?_⟩
      simpa using holds.longestBraced_objectChars
  · exact fun bare => ⟨.noObject, object_of_not_holdsBraces bare, rfl⟩

/-- Braces of the other kind and characters of any width may stand in the prose. -/
theorem ingest_of_surrounded_answer :
    ingest ("Voilà \x7d → " ++ "\x7b\"steps\":[]\x7d \x7d \x7b" ++ " \x7b fin ✓") {} =
      ingest "\x7b\"steps\":[]\x7d \x7d \x7b" {} :=
  (ingest_of_surrounded (by decide) (by decide) _ _).1

end MotionSteps.Response
