import MotionSteps.Json.Reader

/-!
# Reading strings

A string runs to the next bare quote. An escape names a character by a letter or by
four hexadecimal digits, a character beyond the basic plane by the two halves of a
surrogate pair. Raw control characters are refused.
-/

namespace MotionSteps.Json

namespace Escape

/-- The characters that a single letter behind the backslash names. -/
def letter? (c : Char) : Option Char :=
  match c with
  | '"' => some '"'
  | '\\' => some '\\'
  | '/' => some '/'
  | 'b' => some '\x08'
  | 'f' => some '\x0c'
  | 'n' => some '\n'
  | 'r' => some '\r'
  | 't' => some '\t'
  | _ => none

/-- The value of a hexadecimal digit in either case. -/
def hexDigit? (c : Char) : Option Nat :=
  if '0' ≤ c ∧ c ≤ '9' then some (c.toNat - '0'.toNat)
  else if 'a' ≤ c ∧ c ≤ 'f' then some (c.toNat - 'a'.toNat + 10)
  else if 'A' ≤ c ∧ c ≤ 'F' then some (c.toNat - 'A'.toNat + 10)
  else none

/-- The fault of a text whose next four bytes are not hexadecimal digits. The four
bytes count as read; with fewer left, the text ends inside its string. -/
def notHex (text : List Char) : Fault :=
  if byteCount text < 4 then .before .endInString []
  else ⟨.unknownEscape, byteCount text - 4⟩

/-- Four hexadecimal digits. -/
def fourHex (text : List Char) : Except Fault (Nat × List Char) :=
  match text with
  | a :: b :: c :: d :: rest =>
      match hexDigit? a, hexDigit? b, hexDigit? c, hexDigit? d with
      | some a, some b, some c, some d => .ok (((a * 16 + b) * 16 + c) * 16 + d, rest)
      | _, _, _, _ => .error (notHex text)
  | _ => .error (notHex text)

/-- The second half of a surrogate pair, whose first half is given. -/
def secondHalf (first : Nat) (text : List Char) : Except Fault (Char × List Char) :=
  match text with
  | [] => .error (.before .endInString [])
  | '\\' :: behind =>
      match behind with
      | [] => .error (.before .endInString [])
      | 'u' :: digits =>
          match fourHex digits with
          | .error fault => .error fault
          | .ok (second, rest) =>
              if 0xDC00 ≤ second ∧ second < 0xE000 then
                .ok (Char.ofNat (0x10000 + (first - 0xD800) * 0x400 + (second - 0xDC00)), rest)
              else .error (.before .loneSurrogate rest)
      | _ => .error (.on .unfinishedSurrogate behind)
  | _ => .error (.on .unfinishedSurrogate text)

/-- The character that the digits behind `\u` name. -/
def unicode (text : List Char) : Except Fault (Char × List Char) :=
  match fourHex text with
  | .error fault => .error fault
  | .ok (first, rest) =>
      if first < 0xD800 ∨ 0xE000 ≤ first then .ok (Char.ofNat first, rest)
      else if 0xDC00 ≤ first then .error (.before .loneSurrogate rest)
      else secondHalf first rest

/-- The character named by the escape whose backslash was read. -/
def read (text : List Char) : Except Fault (Char × List Char) :=
  match text with
  | [] => .error (.before .endInString [])
  | c :: rest =>
      match letter? c with
      | some named => .ok (named, rest)
      | none => if c == 'u' then unicode rest else .error (.on .unknownEscape text)

theorem fourHex_shorter {text rest : List Char} {code : Nat}
    (ran : fourHex text = .ok (code, rest)) : rest.length < text.length := by
  unfold fourHex at ran
  split at ran
  · split at ran
    · cases ran
      simp only [List.length_cons]
      omega
    · cases ran
  · cases ran

theorem secondHalf_shorter {first : Nat} {text rest : List Char} {named : Char}
    (ran : secondHalf first text = .ok (named, rest)) : rest.length < text.length := by
  unfold secondHalf at ran
  split at ran
  · cases ran
  · split at ran
    · cases ran
    · split at ran
      · cases ran
      · next second behind ranHex =>
          split at ran
          · simp only [Except.ok.injEq, Prod.mk.injEq] at ran
            obtain ⟨_, rfl⟩ := ran
            have := fourHex_shorter ranHex
            simp only [List.length_cons]
            omega
          · cases ran
    · cases ran
  · cases ran

theorem unicode_shorter {text rest : List Char} {named : Char}
    (ran : unicode text = .ok (named, rest)) : rest.length < text.length := by
  unfold unicode at ran
  split at ran
  · cases ran
  · next first behind ranHex =>
      have behindHex := fourHex_shorter ranHex
      split at ran
      · simp only [Except.ok.injEq, Prod.mk.injEq] at ran
        obtain ⟨_, rfl⟩ := ran
        exact behindHex
      · split at ran
        · cases ran
        · have := secondHalf_shorter ran
          omega

theorem read_shorter {text rest : List Char} {named : Char}
    (ran : read text = .ok (named, rest)) : rest.length < text.length := by
  unfold read at ran
  split at ran
  · cases ran
  · split at ran
    · cases ran
      simp
    · split at ran
      · have := unicode_shorter ran
        simp only [List.length_cons]
        omega
      · cases ran

end Escape

/-- Read on to the quote that closes a string. The characters read so far stand in
reverse. -/
def readString (reversed : List Char) (text : List Char) : Except Fault (String × List Char) :=
  match text with
  | [] => .error (.before .endInString [])
  | c :: rest =>
      if c == '"' then .ok (String.ofList reversed.reverse, rest)
      else if c == '\\' then
        match escape : Escape.read rest with
        | .error fault => .error fault
        | .ok (named, behind) =>
            have := Escape.read_shorter escape
            readString (named :: reversed) behind
      else if c.toNat < 0x20 then .error (.before .rawControl rest)
      else readString (c :: reversed) rest
termination_by text.length
decreasing_by
  · simp only [List.length_cons]
    omega
  · simp

theorem readString_shorter {reversed text rest : List Char} {found : String}
    (ran : readString reversed text = .ok (found, rest)) : rest.length < text.length := by
  fun_induction readString reversed text with
  | case1 => cases ran
  | case2 =>
      cases ran
      simp
  | case3 => cases ran
  | case4 reversed c rest' _ _ named behind escape shorter inductionHypothesis =>
      have := inductionHypothesis ran
      simp only [List.length_cons]
      omega
  | case5 => cases ran
  | case6 reversed c rest' _ _ _ inductionHypothesis =>
      have := inductionHypothesis ran
      simp only [List.length_cons]
      omega

end MotionSteps.Json
