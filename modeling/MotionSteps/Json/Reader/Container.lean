import MotionSteps.Json.Reader.Head

/-!
# Arrays and objects

The items of an array and the members of an object are read by two loops that know
nothing of what they collect: the array loop is given a reader of items, the object
loop a function from a key to the reader of its value.
-/

namespace MotionSteps.Json

/-- What stands next inside an array: its end, with what follows the bracket, or
another item. -/
inductive ItemTurn where
  | finished (rest : List Char)
  | another (start : List Char)

/-- Look for the next item. Behind the first item a comma must come before it. -/
def nextItem (first : Bool) (text : List Char) : Except Fault ItemTurn :=
  match skipBlanks text with
  | [] => .error (.before .endInArray [])
  | c :: rest =>
      if c == ']' then .ok (.finished rest)
      else if first then .ok (.another (c :: rest))
      else if c == ',' then
        match skipBlanks rest with
        | [] => .error (.before .endInValue [])
        | d :: behind =>
            if d == ']' then .error (.on .trailingComma (d :: behind))
            else .ok (.another (d :: behind))
      else .error (.on .noCommaInArray (c :: rest))

theorem nextItem_finished_shorter {first : Bool} {text rest : List Char}
    (turn : nextItem first text = .ok (.finished rest)) : rest.length < text.length := by
  unfold nextItem at turn
  split at turn
  · cases turn
  · next c behind seen =>
      have := length_lt_of_skipBlanks_eq_cons seen
      split at turn
      · cases turn
        exact this
      · split at turn
        · cases turn
        · split at turn
          · split at turn
            · cases turn
            · split at turn <;> cases turn
          · cases turn

theorem nextItem_another_le {first : Bool} {text start : List Char}
    (turn : nextItem first text = .ok (.another start)) : start.length ≤ text.length := by
  unfold nextItem at turn
  split at turn
  · cases turn
  · next c behind seen =>
      have bound := length_skipBlanks_le text
      rw [seen] at bound
      split at turn
      · cases turn
      · split at turn
        · cases turn
          exact bound
        · split at turn
          · split at turn
            · cases turn
            · next d further seenItem =>
                split at turn
                · cases turn
                · cases turn
                  have := length_skipBlanks_le behind
                  rw [seenItem] at this
                  simp only [List.length_cons] at *
                  omega
          · cases turn

/-- Read items up to the end of their array. The items read so far stand in
reverse. -/
def readItems {α : Type} (item : Reader α) (first : Bool) (reversed : List α)
    (text : List Char) : Except Fault (List α × List Char) :=
  match turn : nextItem first text with
  | .error fault => .error fault
  | .ok (.finished rest) => .ok (reversed.reverse, rest)
  | .ok (.another start) =>
      match ran : item.run start with
      | .error fault => .error fault
      | .ok (value, rest) =>
          have : rest.length < text.length :=
            Nat.lt_of_lt_of_le (item.shorter ran) (nextItem_another_le turn)
          readItems item false (value :: reversed) rest
termination_by text.length

theorem readItems_shorter {α : Type} {item : Reader α} {first : Bool} {reversed items : List α}
    {text rest : List Char} (ran : readItems item first reversed text = .ok (items, rest)) :
    rest.length < text.length := by
  fun_induction readItems item first reversed text with
  | case1 => cases ran
  | case2 first reversed text behind turn =>
      cases ran
      exact nextItem_finished_shorter turn
  | case3 => cases ran
  | case4 first reversed text start turn value behind _ shorter inductionHypothesis =>
      have := inductionHypothesis ran
      omega

/-- What stands next inside an object: its end, with what follows the brace, or
another key, with what follows it. -/
inductive KeyTurn where
  | finished (rest : List Char)
  | another (key : String) (rest : List Char)

/-- The key that the first character of a text begins. -/
def readKey (c : Char) (rest : List Char) : Except Fault KeyTurn :=
  if c == '"' then
    match readString [] rest with
    | .error fault => .error fault
    | .ok (key, behind) => .ok (.another key behind)
  else .error (.on .keyNotString (c :: rest))

/-- Look for the next key. Behind the first member a comma must come before it. -/
def nextKey (first : Bool) (text : List Char) : Except Fault KeyTurn :=
  match skipBlanks text with
  | [] => .error (.before .endInObject [])
  | c :: rest =>
      if c == '}' then .ok (.finished rest)
      else if first then readKey c rest
      else if c == ',' then
        match skipBlanks rest with
        | [] => .error (.before .endInValue [])
        | d :: behind =>
            if d == '}' then .error (.on .trailingComma (d :: behind)) else readKey d behind
      else .error (.on .noCommaInObject (c :: rest))

theorem readKey_ne_finished {c : Char} {text rest : List Char} :
    readKey c text ≠ .ok (.finished rest) := by
  intro turn
  unfold readKey at turn
  split at turn
  · split at turn <;> cases turn
  · cases turn

theorem readKey_another_shorter {c : Char} {text rest : List Char} {key : String}
    (turn : readKey c text = .ok (.another key rest)) : rest.length < text.length := by
  unfold readKey at turn
  split at turn
  · split at turn
    · cases turn
    · next ran =>
        cases turn
        exact readString_shorter ran
  · cases turn

theorem nextKey_finished_shorter {first : Bool} {text rest : List Char}
    (turn : nextKey first text = .ok (.finished rest)) : rest.length < text.length := by
  unfold nextKey at turn
  split at turn
  · cases turn
  · next c behind seen =>
      have := length_lt_of_skipBlanks_eq_cons seen
      split at turn
      · cases turn
        exact this
      · split at turn
        · exact absurd turn readKey_ne_finished
        · split at turn
          · split at turn
            · cases turn
            · split at turn
              · cases turn
              · exact absurd turn readKey_ne_finished
          · cases turn

theorem nextKey_another_shorter {first : Bool} {text rest : List Char} {key : String}
    (turn : nextKey first text = .ok (.another key rest)) : rest.length < text.length := by
  unfold nextKey at turn
  split at turn
  · cases turn
  · next c behind seen =>
      have behindShorter := length_lt_of_skipBlanks_eq_cons seen
      split at turn
      · cases turn
      · split at turn
        · have := readKey_another_shorter turn
          omega
        · split at turn
          · split at turn
            · cases turn
            · next d further seenKey =>
                split at turn
                · cases turn
                · have := readKey_another_shorter turn
                  have := length_lt_of_skipBlanks_eq_cons seenKey
                  omega
          · cases turn

/-- The colon between a key and its value. -/
def readColon (text : List Char) : Except Fault (List Char) :=
  match skipBlanks text with
  | [] => .error (.before .endInObject [])
  | c :: rest => if c == ':' then .ok rest else .error (.on .noColon (c :: rest))

theorem readColon_shorter {text rest : List Char} (ran : readColon text = .ok rest) :
    rest.length < text.length := by
  unfold readColon at ran
  split at ran
  · cases ran
  · next seen =>
      split at ran
      · cases ran
        exact length_lt_of_skipBlanks_eq_cons seen
      · cases ran

/-- The place at which a key is reported that its object may not have: behind the
key and the separators after it, and behind the brace if the object ends there. -/
def behindRefusedKey (text : List Char) : List Char :=
  match skipBlanks text with
  | '}' :: rest => rest
  | rest => rest

/-- Read members up to the end of their object. `member` gives the reader of the
value under a key, which also takes in what was read before, or refuses the key. -/
def readMembers {σ : Type} (member : σ → String → Except Cause (Reader σ)) (first : Bool)
    (state : σ) (text : List Char) : Except Fault (σ × List Char) :=
  match turn : nextKey first text with
  | .error fault => .error fault
  | .ok (.finished rest) => .ok (state, rest)
  | .ok (.another key behind) =>
      match member state key with
      | .error cause => .error (.before cause (behindRefusedKey behind))
      | .ok value =>
          match colon : readColon behind with
          | .error fault => .error fault
          | .ok start =>
              match ran : value.run start with
              | .error fault => .error fault
              | .ok (next, rest) =>
                  have : rest.length < text.length :=
                    Nat.lt_trans (value.shorter ran)
                      (Nat.lt_trans (readColon_shorter colon) (nextKey_another_shorter turn))
                  readMembers member false next rest
termination_by text.length

theorem readMembers_shorter {σ : Type} {member : σ → String → Except Cause (Reader σ)}
    {first : Bool} {state result : σ} {text rest : List Char}
    (ran : readMembers member first state text = .ok (result, rest)) :
    rest.length < text.length := by
  fun_induction readMembers member first state text with
  | case1 => cases ran
  | case2 first state text behind turn =>
      cases ran
      exact nextKey_finished_shorter turn
  | case3 => cases ran
  | case4 => cases ran
  | case5 => cases ran
  | case6 first state text key behind turn value _ start colon next behindValue _ shorter
      inductionHypothesis =>
      have := inductionHypothesis ran
      omega

namespace Reader

/-- An array, each item read alike. -/
def array {α : Type} (item : Reader α) : Reader (List α) where
  run text :=
    match Head.read text with
    | .error fault => .error fault
    | .ok (.array, rest) => readItems item true [] rest
    | .ok (head, rest) => .error (wrongKind .array head rest)
  shorter := by
    intro text value rest equation
    split at equation
    · cases equation
    · next behind ran =>
        have := Head.read_shorter ran
        have := readItems_shorter equation
        omega
    · cases equation

end Reader

end MotionSteps.Json
