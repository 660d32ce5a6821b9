import MotionSteps.Json.Reader.Container

/-!
# Reading values of any kind

A reader of free values is limited in how deeply it follows nested containers. The
members of an object that it reads are in ascending order of key, and the last of
several members with one key counts.
-/

namespace MotionSteps.Json

/-- The number of containers that may be open at once in a document. -/
def maxDepth : Nat := 127

/-- Read a value whose items and members, if it has any, are read by `nested`.
Without one, a container is too deep; its bracket counts as read. -/
def readValue (nested : Option (Reader Json)) (text : List Char) :
    Except Fault (Json × List Char) :=
  match Head.read text with
  | .error fault => .error fault
  | .ok (.null, rest) => .ok (.null, rest)
  | .ok (.bool value, rest) => .ok (.bool value, rest)
  | .ok (.number value, rest) => .ok (.number value, rest)
  | .ok (.string value, rest) => .ok (.string value, rest)
  | .ok (.array, rest) =>
      match nested with
      | none => .error (.before .tooDeep rest)
      | some item =>
          match readItems item true [] rest with
          | .error fault => .error fault
          | .ok (items, behind) => .ok (.array items, behind)
  | .ok (.object, rest) =>
      match nested with
      | none => .error (.before .tooDeep rest)
      | some value =>
          let member (members : Members) (key : String) : Except Cause (Reader Members) :=
            .ok (value.map (Members.insert key · members))
          match readMembers member true [] rest with
          | .error fault => .error fault
          | .ok (members, behind) => .ok (.object members, behind)

theorem readValue_shorter {nested : Option (Reader Json)} {text rest : List Char} {value : Json}
    (ran : readValue nested text = .ok (value, rest)) : rest.length < text.length := by
  unfold readValue at ran
  split at ran
  · cases ran
  · next head =>
      cases ran
      exact Head.read_shorter head
  · next head =>
      cases ran
      exact Head.read_shorter head
  · next head =>
      cases ran
      exact Head.read_shorter head
  · next head =>
      cases ran
      exact Head.read_shorter head
  · next head =>
      split at ran
      · cases ran
      · split at ran
        · cases ran
        · next items =>
            cases ran
            have := Head.read_shorter head
            have := readItems_shorter items
            omega
  · next head =>
      split at ran
      · cases ran
      · simp only at ran
        split at ran
        · cases ran
        · next members =>
            cases ran
            have := Head.read_shorter head
            have := readMembers_shorter members
            omega

namespace Reader

/-- A value of any kind that opens at most `depth` containers one inside another. -/
def value : (depth : Nat) → Reader Json
  | 0 => ⟨readValue none, readValue_shorter⟩
  | depth + 1 => ⟨readValue (some (value depth)), readValue_shorter⟩

/-- A value of any kind, or null for none. -/
def valueOrNull (depth : Nat) : Reader (Option Json) :=
  (value depth).map fun
    | .null => none
    | found => some found

end Reader

/-- The value that a text spells. -/
def parse (text : String) : Except ReadError Json :=
  (Reader.value maxDepth).parse text

end MotionSteps.Json
