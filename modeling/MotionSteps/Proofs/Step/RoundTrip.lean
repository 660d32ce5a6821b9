import Mathlib
import MotionSteps.Proofs.Json.Readable
import MotionSteps.Proofs.Step.Shape

/-!
# Printed parameters resolve to themselves

A field looks for its value under several keys. In a record that was printed, the first key
that is there is the one under which the record prints that field. The members that a reader
makes of the printed record therefore resolve to the same parameters, if the numbers among
them come back: `Params.NumbersReturn` asks this of each number of the record, after the reader
of numbers and the field have both had their say.
-/

namespace MotionSteps

open Json

/-! ## Numbers -/

/-- A record holds numbers that compare as equal in the same way: either zero is written as
the integer zero, and no other two numbers compare as equal. -/
theorem recordNumber_congr {first second : Float} (same : (first == second) = true) :
    recordNumber first = recordNumber second := by
  have plus : Number.asWhole? 0 = some 0 := by decide +kernel
  have minus : Number.asWhole? (-0) = some 0 := by decide +kernel
  have zeros : recordNumber (-0) = recordNumber 0 := by
    simp only [recordNumber, plus, minus]
  obtain ⟨-, -, rfl | ⟨rfl, rfl⟩ | ⟨rfl, rfl⟩⟩ := Float.beq_iff_ne_nan_and_eq.mp same
  · rfl
  · exact zeros.symm
  · exact zeros

/-- The number that a number field makes of a printed value, with the reader of numbers in
between. -/
def Json.returned? : Json → Option Float
  | .number printed => printed.reread?.bind fun found => (Json.number found).asNumber?
  | _ => none

namespace Number

/-- A number field finds the number that a record printed, or one that is equal to it. -/
def FloatReturns (value : Float) : Prop :=
  (recordNumber value).returned?.any (· == value) = true

/-- An integral field finds the integer that a record printed. -/
def IntegerReturns (value : Int) : Prop :=
  (recordInteger value).returned?.map toInteger = some value

instance (value : Float) : Decidable (FloatReturns value) :=
  inferInstanceAs (Decidable (_ = _))

instance (value : Int) : Decidable (IntegerReturns value) :=
  inferInstanceAs (Decidable (_ = _))

end Number

theorem Json.exists_of_returned? {value : Json} {returned : Float}
    (found : value.returned? = some returned) :
    ∃ number, (∀ limit, Reads (Reader.value limit) value (.number number)) ∧
      (Json.number number).asNumber? = some returned := by
  cases value with
  | number printed =>
      obtain ⟨number, read, converted⟩ := Option.bind_eq_some_iff.mp found
      exact ⟨number, Reads.number read, converted⟩
  | _ => cases found

theorem Number.FloatReturns.exists_reads {value : Float} (returns : FloatReturns value) :
    ∃ number returned,
      (∀ limit, Reads (Reader.value limit) (recordNumber value) (.number number)) ∧
      (Json.number number).asNumber? = some returned ∧
      recordNumber returned = recordNumber value := by
  unfold FloatReturns at returns
  cases found : (recordNumber value).returned? with
  | none => rw [found] at returns; cases returns
  | some returned =>
      rw [found] at returns
      obtain ⟨number, read, converted⟩ := exists_of_returned? found
      exact ⟨number, returned, read, converted, recordNumber_congr returns⟩

theorem Number.IntegerReturns.exists_reads {value : Int} (returns : IntegerReturns value) :
    ∃ number returned,
      (∀ limit, Reads (Reader.value limit) (recordInteger value) (.number number)) ∧
      (Json.number number).asNumber? = some returned ∧ toInteger returned = value := by
  obtain ⟨returned, found, same⟩ := Option.map_eq_some_iff.mp returns
  obtain ⟨number, read, converted⟩ := exists_of_returned? found
  exact ⟨number, returned, read, converted, same⟩

namespace Params

/-- The binary64 numbers of a record, in the order in which it prints them. -/
def floats : Params → List Float
  | .motion record => [record.position, record.speed]
  | .linearMove record => [record.target.x, record.target.y, record.target.z, record.speed]
  | .relativeMove record => [record.distance, record.speed]
  | .circularMove record =>
      [record.center.x, record.center.y, record.target.x, record.target.y]
  | .wait _ | .counter _ | .goto _ | .passthrough _ => []

/-- The integers of a record, in the order in which it prints them. -/
def integers : Params → List Int
  | .wait record => [record.delay]
  | .counter record => [record.first, record.target, record.increment]
  | .motion _ | .linearMove _ | .relativeMove _ | .circularMove _ | .goto _
  | .passthrough _ => []

/-- The numbers in an object that is passed on. -/
def passedNumbers : Params → List Json.Number
  | .passthrough members => membersNumbers members
  | _ => []

/-- Every number of the parameters comes back as the one that was printed, through the reader
and, in a record, through the field that takes it. -/
structure NumbersReturn (params : Params) : Prop where
  floats : ∀ value ∈ params.floats, Number.FloatReturns value
  integers : ∀ value ∈ params.integers, Number.IntegerReturns value
  passed : ∀ number ∈ params.passedNumbers, number.ReadsBack

instance (params : Params) : Decidable params.NumbersReturn :=
  decidable_of_iff
    ((∀ value ∈ params.floats, Number.FloatReturns value) ∧
      (∀ value ∈ params.integers, Number.IntegerReturns value) ∧
        ∀ number ∈ params.passedNumbers, number.ReadsBack)
    ⟨fun ⟨floats, integers, passed⟩ => ⟨floats, integers, passed⟩,
      fun numbers => ⟨numbers.floats, numbers.integers, numbers.passed⟩⟩

end Params

/-! ## Fields -/

namespace ParamField

/-- The first candidate of a field. -/
def Finds (field : ParamField) (members : Members) (found : Json) : Prop :=
  field.paths.findSome? members.present? = some found

/-- A field finds what stands on one of its first paths. -/
theorem Finds.of_first {field : ParamField} {members : Members} {found : Json} (paths : List Path)
    (first : paths <+: field.paths) (present : paths.findSome? members.present? = some found) :
    field.Finds members found := by
  obtain ⟨others, whole⟩ := first
  rw [Finds, ← whole, List.findSome?_append, present, Option.some_or]

end ParamField

namespace Json.Members

variable {members : Members} {field : ParamField} {found : Json}

@[simp] theorem present?_singleton (members : Members) (key : String) :
    members.present? [key] =
      match members.get? key with
      | some .null => none
      | found => found := rfl

@[simp] theorem present?_cons_cons (members : Members) (key next : String) (path : Path) :
    members.present? (key :: next :: path) =
      match members.get? key with
      | some (.object inner) => Members.present? inner (next :: path)
      | _ => none := by
  simp only [present?, follow?]
  cases members.get? key with
  | none => rfl
  | some value => cases value <;> rfl

/-- A field whose first candidate converts has the value of that candidate. -/
theorem resolve_of_finds {α : Type} {convert : Json → Option α} {value : α}
    (finds : field.Finds members found) (converts : convert found.unwrapped = some value)
    (default : α) : members.resolve field convert default = pure value := by
  rw [ParamField.Finds, ← List.head?_filterMap] at finds
  obtain ⟨others, candidates⟩ := List.head?_eq_some_iff.mp finds
  simp only [resolve, candidates, List.findSome?_cons, converts]

theorem number_of_finds {number : Number} {value : Float}
    (finds : field.Finds members (.number number))
    (converts : (Json.number number).asNumber? = some value) (default : Float) :
    members.number field default = pure value :=
  resolve_of_finds finds converts default

theorem integer_of_finds {number : Number} {value : Float}
    (finds : field.Finds members (.number number))
    (converts : (Json.number number).asNumber? = some value) (default : Int) :
    members.integer field default = pure (MotionSteps.Number.toInteger value) :=
  resolve_of_finds finds (congrArg (Option.map MotionSteps.Number.toInteger) converts) default

theorem text_of_finds {text : String} (finds : field.Finds members (.string text))
    (default : String) : members.text field default = pure text := by
  have converts : asText? (Json.string text).unwrapped = some text := rfl
  exact resolve_of_finds finds converts default

end Json.Members

/-! ## Records -/

theorem Direction.ofText?_name (direction : Direction) :
    Direction.ofText? direction.name = some direction := by
  cases direction <;> decide +kernel

namespace Params

/-- What is printed of the parameters is read back, and the same is printed of the parameters
that resolve out of it. -/
def Returns (kind : StepKind) (params : Params) : Prop :=
  ∀ limit, ∃ members : Members, Reads (Reader.value (limit + 2)) params.toJson (.object members) ∧
    (members.params kind).value.toJson = params.toJson

theorem motion_returns (record : MotionParams) (numbers : (motion record).NumbersReturn) :
    (motion record).Returns .motion := by
  intro limit
  obtain ⟨position, position', readPosition, positionIs, samePosition⟩ :=
    (numbers.floats record.position (by simp [floats])).exists_reads
  obtain ⟨speed, speed', readSpeed, speedIs, sameSpeed⟩ :=
    (numbers.floats record.speed (by simp [floats])).exists_reads
  have read : MembersRead (limit + 1) (motion record).members _ :=
    .cons (Reads.text record.axis _) (.cons (readPosition _) (.cons (readSpeed _) .nil))
  refine ⟨_, Reads.members read, ?_⟩
  -- From here on it counts what the fields find, not in which order the members stand.
  generalize shape : Members.collect _ = found
  have axisFound : ParamField.axis.Finds found (.string record.axis) :=
    .of_first [["axis"]] ⟨_, rfl⟩ (by simp [← shape])
  have positionFound : ParamField.position.Finds found (.number position) :=
    .of_first [["target_position"], ["position"], ["pos"]] ⟨_, rfl⟩ (by simp [← shape])
  have speedFound : ParamField.speed.Finds found (.number speed) :=
    .of_first [["speed"]] ⟨_, rfl⟩ (by simp [← shape])
  simp only [Members.params, Resolved.value_bind, Resolved.value_pure,
    Members.text_of_finds axisFound, Members.number_of_finds positionFound positionIs,
    Members.number_of_finds speedFound speedIs, toJson, Params.members, samePosition, sameSpeed]

theorem wait_returns (record : WaitParams) (numbers : (wait record).NumbersReturn) :
    (wait record).Returns .wait := by
  intro limit
  obtain ⟨delay, delay', readDelay, delayIs, sameDelay⟩ :=
    (numbers.integers record.delay (by simp [integers])).exists_reads
  have read : MembersRead (limit + 1) (wait record).members _ := .cons (readDelay _) .nil
  refine ⟨_, Reads.members read, ?_⟩
  generalize shape : Members.collect _ = found
  have delayFound : ParamField.delay.Finds found (.number delay) :=
    .of_first [["delay_ms"]] ⟨_, rfl⟩ (by simp [← shape])
  simp only [Members.params, Resolved.value_bind, Resolved.value_pure,
    Members.integer_of_finds delayFound delayIs, sameDelay]

theorem linearMove_returns (record : LinearMoveParams)
    (numbers : (linearMove record).NumbersReturn) :
    (linearMove record).Returns .linearMove := by
  intro limit
  obtain ⟨x, x', readX, xIs, sameX⟩ :=
    (numbers.floats record.target.x (by simp [floats])).exists_reads
  obtain ⟨y, y', readY, yIs, sameY⟩ :=
    (numbers.floats record.target.y (by simp [floats])).exists_reads
  obtain ⟨z, z', readZ, zIs, sameZ⟩ :=
    (numbers.floats record.target.z (by simp [floats])).exists_reads
  obtain ⟨speed, speed', readSpeed, speedIs, sameSpeed⟩ :=
    (numbers.floats record.speed (by simp [floats])).exists_reads
  have readTarget : Reads (Reader.value (limit + 1)) record.target.toJson _ :=
    Reads.members (.cons (readX _) (.cons (readY _) (.cons (readZ _) .nil)))
  have read : MembersRead (limit + 1) (linearMove record).members _ :=
    .cons readTarget (.cons (readSpeed _) .nil)
  refine ⟨_, Reads.members read, ?_⟩
  generalize shape : Members.collect _ = found
  have xFound : ParamField.targetX.Finds found (.number x) :=
    .of_first [["target", "X"]] ⟨_, rfl⟩ (by simp [← shape])
  have yFound : ParamField.targetY.Finds found (.number y) :=
    .of_first [["target", "Y"]] ⟨_, rfl⟩ (by simp [← shape])
  have zFound : ParamField.targetZ.Finds found (.number z) :=
    .of_first [["target", "Z"]] ⟨_, rfl⟩ (by simp [← shape])
  have speedFound : ParamField.speed.Finds found (.number speed) :=
    .of_first [["speed"]] ⟨_, rfl⟩ (by simp [← shape])
  simp only [Members.params, Resolved.value_bind, Resolved.value_pure,
    Members.number_of_finds xFound xIs, Members.number_of_finds yFound yIs,
    Members.number_of_finds zFound zIs, Members.number_of_finds speedFound speedIs, toJson,
    Params.members, SpacePoint.toJson, sameX, sameY, sameZ, sameSpeed]

theorem relativeMove_returns (record : RelativeMoveParams)
    (numbers : (relativeMove record).NumbersReturn) :
    (relativeMove record).Returns .relativeMove := by
  intro limit
  obtain ⟨distance, distance', readDistance, distanceIs, sameDistance⟩ :=
    (numbers.floats record.distance (by simp [floats])).exists_reads
  obtain ⟨speed, speed', readSpeed, speedIs, sameSpeed⟩ :=
    (numbers.floats record.speed (by simp [floats])).exists_reads
  have read : MembersRead (limit + 1) (relativeMove record).members _ :=
    .cons (Reads.text record.axis _) (.cons (readDistance _) (.cons (readSpeed _) .nil))
  refine ⟨_, Reads.members read, ?_⟩
  generalize shape : Members.collect _ = found
  have axisFound : ParamField.axis.Finds found (.string record.axis) :=
    .of_first [["axis"]] ⟨_, rfl⟩ (by simp [← shape])
  have distanceFound : ParamField.distance.Finds found (.number distance) :=
    .of_first [["distance"]] ⟨_, rfl⟩ (by simp [← shape])
  have speedFound : ParamField.speed.Finds found (.number speed) :=
    .of_first [["speed"]] ⟨_, rfl⟩ (by simp [← shape])
  simp only [Members.params, Resolved.value_bind, Resolved.value_pure,
    Members.text_of_finds axisFound, Members.number_of_finds distanceFound distanceIs,
    Members.number_of_finds speedFound speedIs, toJson, Params.members, sameDistance, sameSpeed]

theorem circularMove_returns (record : CircularMoveParams)
    (numbers : (circularMove record).NumbersReturn) :
    (circularMove record).Returns .circularMove := by
  intro limit
  obtain ⟨centerX, centerX', readCenterX, centerXIs, sameCenterX⟩ :=
    (numbers.floats record.center.x (by simp [floats])).exists_reads
  obtain ⟨centerY, centerY', readCenterY, centerYIs, sameCenterY⟩ :=
    (numbers.floats record.center.y (by simp [floats])).exists_reads
  obtain ⟨endX, endX', readEndX, endXIs, sameEndX⟩ :=
    (numbers.floats record.target.x (by simp [floats])).exists_reads
  obtain ⟨endY, endY', readEndY, endYIs, sameEndY⟩ :=
    (numbers.floats record.target.y (by simp [floats])).exists_reads
  have readCenter : Reads (Reader.value (limit + 1)) record.center.toJson _ :=
    Reads.members (.cons (readCenterX _) (.cons (readCenterY _) .nil))
  have readEnd : Reads (Reader.value (limit + 1)) record.target.toJson _ :=
    Reads.members (.cons (readEndX _) (.cons (readEndY _) .nil))
  have read : MembersRead (limit + 1) (circularMove record).members _ :=
    .cons readCenter (.cons readEnd (.cons (Reads.text record.direction.name _) .nil))
  refine ⟨_, Reads.members read, ?_⟩
  generalize shape : Members.collect _ = found
  have centerXFound : ParamField.centerX.Finds found (.number centerX) :=
    .of_first [["center", "X"]] ⟨_, rfl⟩ (by simp [← shape])
  have centerYFound : ParamField.centerY.Finds found (.number centerY) :=
    .of_first [["center", "Y"]] ⟨_, rfl⟩ (by simp [← shape])
  have endXFound : ParamField.endX.Finds found (.number endX) :=
    .of_first [["end", "X"]] ⟨_, rfl⟩ (by simp [← shape])
  have endYFound : ParamField.endY.Finds found (.number endY) :=
    .of_first [["end", "Y"]] ⟨_, rfl⟩ (by simp [← shape])
  have directionFound : ParamField.direction.Finds found (.string record.direction.name) :=
    .of_first [["direction"]] ⟨_, rfl⟩ (by simp [← shape])
  simp only [Members.params, Resolved.value_bind, Resolved.value_pure, Members.direction,
    Members.number_of_finds centerXFound centerXIs, Members.number_of_finds centerYFound centerYIs,
    Members.number_of_finds endXFound endXIs, Members.number_of_finds endYFound endYIs,
    Members.text_of_finds directionFound, Direction.ofText?_name, toJson, Params.members,
    PlanePoint.toJson, sameCenterX, sameCenterY, sameEndX, sameEndY]

theorem counter_returns (record : CounterParams) (numbers : (counter record).NumbersReturn) :
    (counter record).Returns .counter := by
  intro limit
  obtain ⟨first, first', readFirst, firstIs, sameFirst⟩ :=
    (numbers.integers record.first (by simp [integers])).exists_reads
  obtain ⟨target, target', readTarget, targetIs, sameTarget⟩ :=
    (numbers.integers record.target (by simp [integers])).exists_reads
  obtain ⟨increment, increment', readIncrement, incrementIs, sameIncrement⟩ :=
    (numbers.integers record.increment (by simp [integers])).exists_reads
  have read : MembersRead (limit + 1) (counter record).members _ :=
    .cons (Reads.text record.name _)
      (.cons (readFirst _) (.cons (readTarget _) (.cons (readIncrement _) .nil)))
  refine ⟨_, Reads.members read, ?_⟩
  generalize shape : Members.collect _ = found
  have nameFound : ParamField.counterName.Finds found (.string record.name) :=
    .of_first [["name"]] ⟨_, rfl⟩ (by simp [← shape])
  have firstFound : ParamField.counterFirst.Finds found (.number first) :=
    .of_first [["initial"]] ⟨_, rfl⟩ (by simp [← shape])
  have targetFound : ParamField.counterTarget.Finds found (.number target) :=
    .of_first [["target"]] ⟨_, rfl⟩ (by simp [← shape])
  have incrementFound : ParamField.counterIncrement.Finds found (.number increment) :=
    .of_first [["increment"]] ⟨_, rfl⟩ (by simp [← shape])
  simp only [Members.params, Resolved.value_bind, Resolved.value_pure,
    Members.text_of_finds nameFound, Members.integer_of_finds firstFound firstIs,
    Members.integer_of_finds targetFound targetIs,
    Members.integer_of_finds incrementFound incrementIs, sameFirst, sameTarget, sameIncrement]

theorem goto_returns (record : GotoParams) : (goto record).Returns .goto := by
  intro limit
  have read : MembersRead (limit + 1) (goto record).members _ :=
    .cons (Reads.text record.target _) (.cons (Reads.text record.description _) .nil)
  refine ⟨_, Reads.members read, ?_⟩
  generalize shape : Members.collect _ = found
  have targetFound : ParamField.jumpTarget.Finds found (.string record.target) :=
    .of_first [["to"]] ⟨_, rfl⟩ (by simp [← shape])
  have descriptionFound : ParamField.description.Finds found (.string record.description) :=
    .of_first [["description"]] ⟨_, rfl⟩ (by simp [← shape])
  simp only [Members.params, Resolved.value_bind, Resolved.value_pure,
    Members.text_of_finds targetFound, Members.text_of_finds descriptionFound]

end Params

end MotionSteps
