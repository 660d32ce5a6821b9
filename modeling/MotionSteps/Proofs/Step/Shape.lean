import MotionSteps.Step.Extraction

/-!
# The shape of parameters

A step has the record of its own kind, or an object that is passed on if its kind has no
record. `extractText_fits` shows that extraction keeps to this whatever the document says,
so a reader of parameters may tell their form from the kind.
-/

namespace MotionSteps

/-- Parameters have the form that belongs to a kind of step. -/
inductive Params.Fits : StepKind → Params → Prop where
  | motion (record : MotionParams) : Fits .motion (.motion record)
  | wait (record : WaitParams) : Fits .wait (.wait record)
  | linearMove (record : LinearMoveParams) : Fits .linearMove (.linearMove record)
  | relativeMove (record : RelativeMoveParams) : Fits .relativeMove (.relativeMove record)
  | circularMove (record : CircularMoveParams) : Fits .circularMove (.circularMove record)
  | counter (record : CounterParams) : Fits .counter (.counter record)
  | goto (record : GotoParams) : Fits .goto (.goto record)
  | start (members : Json.Members) : Fits .start (.passthrough members)
  | finish (members : Json.Members) : Fits .finish (.passthrough members)
  | io (members : Json.Members) : Fits .io (.passthrough members)
  | other (name : String) (members : Json.Members) : Fits (.other name) (.passthrough members)

/-- The members of a document resolve to parameters of the right form. -/
theorem Json.Members.params_fits (members : Json.Members) (kind : StepKind) :
    Params.Fits kind (members.params kind).value := by
  cases kind <;> simp only [params, Resolved.value_bind, Resolved.value_pure] <;> constructor

namespace StepKind

variable (kind : StepKind)

theorem defaultParams_fits (issue : Issue) :
    Params.Fits kind (kind.defaultParams issue).value :=
  Json.Members.params_fits [] kind

theorem extract_fits (document : Option Json) :
    Params.Fits kind (kind.extract document).value := by
  fun_cases extract kind document with
  | case1 => exact kind.defaultParams_fits .missing
  | case2 members => exact Json.Members.params_fits members kind
  | case3 found notObject => exact kind.defaultParams_fits _

/-- Every document, usable or not, resolves to parameters of the right form. -/
theorem extractText_fits (document : Option String) :
    Params.Fits kind (kind.extractText document).value := by
  fun_cases extractText kind document with
  | case1 => exact kind.extract_fits none
  | case2 => exact kind.extract_fits none
  | case3 raw text given value readable => exact kind.extract_fits (some value)
  | case4 raw text given error unreadable => exact kind.defaultParams_fits _

end StepKind

end MotionSteps
