import MotionSteps.Proofs.Graph.ImpliedPorts
import MotionSteps.Proofs.Step.Kind

/-!
# Ports of labels that mean the same

Two labels mean the same if they are the same once trimmed and put in capitals. The half nodes of
a jump are told apart with the ASCII letters in capitals only. The two ways agree on the letters
of their labels but for one: the dotless `ı` has the capital `I`, and it is no ASCII letter. So a
label that means the import end of a jump is one of a whole node if it is written with it, and
`Ports.ofLabel_eq_iff` says that this is the only way in which the ports of two labels that mean
the same can differ.
-/

namespace MotionSteps

namespace Text

namespace Uppercase

/-- The codes of the letters of the labels of half nodes, and of the space between them. -/
def jumpCodes : List Nat :=
  "JUMP IMPORT EXPORT".toList.map Char.toNat

theorem lt_of_mem_jumpCodes : ∀ code ∈ jumpCodes, code < 0x80 := by
  decide +kernel

/-- No character that becomes several becomes such letters only. -/
theorem exists_notMem_jumpCodes : ∀ entry ∈ expansions, ∃ code ∈ entry.2, code ∉ jumpCodes := by
  decide +kernel

/-- Only the dotless letter becomes one of them. -/
theorem eq_dotless_of_image : ∀ run ∈ shifts, ∀ code ∈ run.codes,
    run.image code ∈ jumpCodes → code = 0x131 := by
  decide +kernel

/-- Beyond ASCII, the dotless letter alone has a capital among the letters of half nodes. -/
theorem eq_dotless_of_codes {code : Nat} (beyond : ¬code < 0x80)
    (letters : ∀ image ∈ codes code, image ∈ jumpCodes) : code = 0x131 := by
  unfold codes at letters
  split at letters
  · next entry found =>
      obtain ⟨image, inside, noLetter⟩ :=
        exists_notMem_jumpCodes entry (List.mem_of_find?_eq_some found)
      exact absurd (letters image inside) noLetter
  · split at letters
    · next run found =>
        have covers : run.covers code = true := by simpa using List.find?_some found
        exact eq_dotless_of_image run (List.mem_of_find?_eq_some found) code
          (Shift.mem_codes covers) (letters _ List.mem_cons_self)
    · exact absurd (lt_of_mem_jumpCodes code (letters code List.mem_cons_self)) beyond

theorem toNat_ofNat_of_mem_codes {c : Char} {code : Nat} (member : code ∈ codes c.toNat) :
    (Char.ofNat code).toNat = code := by
  rcases codes_eq_or_subset c.toNat with same | ⟨-, listed⟩
  · rw [same, List.mem_singleton] at member
    rw [member, Char.ofNat_toNat]
  · exact toNat_ofNat_of_mem_imageCodes (listed member)

/-- A character whose capitals are letters of half nodes is the dotless letter, or its capital
is that of ASCII. -/
theorem eq_dotless_or_chars_eq {c : Char} (letters : ∀ image ∈ chars c, image.toNat ∈ jumpCodes) :
    c = 'ı' ∨ chars c = [c.toUpper] := by
  by_cases ascii : c.toNat < 0x80
  · exact .inr (chars_of_ascii ascii)
  · have beyond : chars c = (codes c.toNat).map Char.ofNat := by simp [chars, ascii]
    have dotless : c.toNat = 0x131 := by
      refine eq_dotless_of_codes ascii fun code member => ?_
      have letter := letters (Char.ofNat code) (beyond ▸ List.mem_map_of_mem member)
      rwa [toNat_ofNat_of_mem_codes member] at letter
    exact .inl (Char.toNat_inj.mp dotless)

theorem chars_dotless : chars 'ı' = ['I'] := by
  decide +kernel

end Uppercase

/-- What is not blank is trimmed from no text. -/
theorem mem_trimChars_iff {text : List Char} {c : Char} (visible : isBlank c = false) :
    c ∈ trimChars text ↔ c ∈ text := by
  have kept : ∀ text : List Char, c ∈ text.dropWhile isBlank ↔ c ∈ text := by
    intro text
    constructor
    · exact fun member => (List.dropWhile_suffix isBlank).subset member
    · intro member
      rw [← List.takeWhile_append_dropWhile (p := isBlank) (l := text), List.mem_append] at member
      refine member.resolve_left fun taken => ?_
      rw [List.mem_takeWhile_imp taken] at visible
      cases visible
  rw [trimChars, List.mem_reverse, kept, List.mem_reverse, kept]

/-- Capitals of ASCII letters make the label of a half node exactly if all capitals do, and the
dotless letter is not in the text. -/
theorem uppercaseAscii_eq_iff {text name : String}
    (letters : ∀ c ∈ name.toList, c.toNat ∈ Uppercase.jumpCodes) :
    uppercaseAscii text = name ↔ uppercase text = name ∧ 'ı' ∉ text.toList := by
  constructor
  · intro folded
    refine ⟨uppercase_of_uppercaseAscii (fun c member =>
      Uppercase.lt_of_mem_jumpCodes _ (letters c member)) folded, fun dotless => ?_⟩
    have kept : 'ı' ∈ name.toList := by
      rw [← folded, uppercaseAscii, String.toList_ofList]
      exact List.mem_map.mpr ⟨'ı', dotless, by decide⟩
    exact absurd (letters 'ı' kept) (by decide +kernel)
  · rintro ⟨folded, dotted⟩
    have capitals : uppercaseChars text.toList = name.toList := by
      rw [← folded, toList_uppercase]
    have images : ∀ c ∈ text.toList, Uppercase.chars c = [c.toUpper] := by
      intro c member
      refine (Uppercase.eq_dotless_or_chars_eq fun image inside => ?_).resolve_left fun same =>
        dotted (same ▸ member)
      exact letters image (capitals ▸ List.mem_flatMap.mpr ⟨c, member, inside⟩)
    rw [uppercaseChars, List.flatMap_congr images, ← List.map_eq_flatMap] at capitals
    rw [uppercaseAscii, capitals, String.ofList_toList]

end Text

namespace Ports

open StepKind (foldLabel)

/-- The ports of a label by what it is compared as. -/
theorem ofLabel_eq (label : String) :
    ofLabel label =
      if foldLabel label = "JUMP IMPORT" ∧ 'ı' ∉ label.toList then ⟨true, false⟩
      else if foldLabel label = "JUMP EXPORT" then ⟨false, true⟩
      else (StepKind.ofLabel label).ports := by
  have dotless : 'ı' ∈ (Text.trim label).toList ↔ 'ı' ∈ label.toList := by
    rw [Text.toList_trim]
    exact Text.mem_trimChars_iff (by decide)
  have import_ : Text.uppercaseAscii (Text.trim label) = "JUMP IMPORT" ↔
      foldLabel label = "JUMP IMPORT" ∧ 'ı' ∉ label.toList := by
    rw [← dotless]
    exact Text.uppercaseAscii_eq_iff (List.forall_iff_forall_mem.mp (by decide +kernel))
  have export_ : Text.uppercaseAscii (Text.trim label) = "JUMP EXPORT" ↔
      foldLabel label = "JUMP EXPORT" := by
    rw [Text.uppercaseAscii_eq_iff (List.forall_iff_forall_mem.mp (by decide +kernel))]
    refine and_iff_left_of_imp fun folded member => ?_
    -- The dotless letter would have left its capital in the label.
    have capital : 'I' ∈ (Text.uppercase (Text.trim label)).toList := by
      rw [Text.toList_uppercase]
      exact List.mem_flatMap.mpr ⟨'ı', member, by rw [Text.Uppercase.chars_dotless]; decide⟩
    rw [folded] at capital
    exact absurd capital (by decide)
  simp only [ofLabel, beq_iff_eq, import_, export_]

theorem ports_of_foldLabel_eq {label : String} (folded : foldLabel label = "JUMP IMPORT") :
    (StepKind.ofLabel label).ports = ⟨true, true⟩ := by
  rw [StepKind.ofLabel, folded]
  decide +kernel

/-- Labels that mean the same have the same ports, unless they mean the import end of a jump and
one of them alone is written with the dotless letter. The inputs are the same even then. -/
theorem ofLabel_eq_iff {label other : String} (same : foldLabel label = foldLabel other) :
    (ofLabel label).input = (ofLabel other).input ∧
      (ofLabel label = ofLabel other ↔
        (foldLabel label = "JUMP IMPORT" → ('ı' ∈ label.toList ↔ 'ı' ∈ other.toList))) := by
  have kind : StepKind.ofLabel label = StepKind.ofLabel other := by
    rw [StepKind.ofLabel, StepKind.ofLabel, same]
  rw [ofLabel_eq label, ofLabel_eq other, ← kind, ← same]
  by_cases import_ : foldLabel label = "JUMP IMPORT"
  · rw [ports_of_foldLabel_eq import_, import_]
    by_cases dotless : 'ı' ∈ label.toList <;> by_cases dotlessToo : 'ı' ∈ other.toList <;>
      simp [dotless, dotlessToo]
  · simp [import_]

/-- The dotless letter has the capital of the dotted one, and makes a half node a whole one. -/
theorem import_in_dotless_letters :
    foldLabel "jump ımport" = foldLabel "jump import" ∧
      ofLabel "jump ımport" ≠ ofLabel "jump import" := by
  decide +kernel

/-- Padding and the case of ASCII letters change no port. -/
theorem ofLabel_padded_import :
    foldLabel "\tJump Import " = foldLabel "jump import" ∧
      ofLabel "\tJump Import " = ofLabel "jump import" :=
  have same : foldLabel "\tJump Import " = foldLabel "jump import" := by decide +kernel
  ⟨same, (ofLabel_eq_iff same).2.mpr fun _ => by decide +kernel⟩

end Ports

end MotionSteps
