import MotionSteps.Proofs.Json.Readable
import MotionSteps.Reply

/-!
# What the editor is told, and what it gets

The editor is told of a result in full: its members, or the parts of the failure in its place. What
it gets depends on the conversion into values of its own language. `Gets` says of a conversion that
refuses integers for their size, and nothing else, that a failure always arrives and a success
arrives unless an integer in it is too large.
-/

namespace MotionSteps

/-- The program of a project under settings: the project is restored and then compiled. -/
def Project.program (project : String) (settings : Settings) : Except Failure Sequence := do
  let graph ← Graph.restore project
  graph.compile settings

/-- The report on a project: the project is restored and then analyzed. -/
def Project.report (project : String) : Except Failure Report := do
  let graph ← Graph.restore project
  graph.analyze

/-- The text of settings, in some layout. -/
def Settings.text (layout : Json.Layout) (settings : Settings) : String :=
  String.ofList (Json.chars layout 0 settings.toJson)

/-- A result whose failure, if it is one, is about no node. -/
def FailsBare {α : Type} (result : Except Failure α) : Prop :=
  ∀ failure, result = .error failure → failure.node? = none

theorem failsBare_error {α : Type} {failure : Failure} (bare : failure.node? = none) :
    FailsBare (.error failure : Except Failure α) := by
  rintro _ ⟨⟩
  exact bare

theorem FailsBare.bind {α β : Type} {result : Except Failure α} {next : α → Except Failure β}
    (bare : FailsBare result) (bareNext : ∀ value, FailsBare (next value)) :
    FailsBare (result >>= next) := by
  cases result with
  | error failure => exact failsBare_error (bare failure rfl)
  | ok value => exact bareNext value

namespace Reply

variable {α : Type} {members : α → Json.Members}

/-- What the editor is told of a result: its members, or the parts of one failure, which is about
no node. -/
inductive Tells (members : α → Json.Members) : Except Failure α → Json → Prop where
  | success (value : α) :
      Tells members (.ok value) (.object (("status", .string "success") :: members value))
  | errors (failure : Failure) :
      Tells members (.error failure)
        (.object [("status", .string "errors"), ("errors", .array [.object [
          ("code", .string failure.code), ("phase", .string failure.phase.name),
          ("message", .string failure.message), ("node_id", .null)]])])

end Reply

/-! ## What arrives -/

/-- Whether a number is none of the integers that binary64 numbers may confuse with another one. -/
def Json.Number.isSafe : Json.Number → Bool
  | .integer value => value.natAbs ≤ 9007199254740991
  | .float _ => true

/-- Whether every number in a value is safe. -/
def Json.isSafe (value : Json) : Bool :=
  value.numbers.all Number.isSafe

namespace Editor

variable {Value α : Type} {conversion : Conversion Value} {members : α → Json.Members}
  {result : Except Failure α} {told : Json}

/-- What the editor gets for a result: the value of what it is told. Only a success can be refused,
for an unsafe integer among its members, and the editor then gets the value that stands for
nothing. -/
inductive Gets (conversion : Conversion Value) (members : α → Json.Members) :
    Except Failure α → Value → Prop where
  | arrived {result : Except Failure α} {told : Json} {value : Value}
      (tells : Reply.Tells members result told) (converts : conversion.convert? told = some value) :
      Gets conversion members result value
  | refused {found : α} (tooLarge : (Json.object (members found)).isSafe = false) :
      Gets conversion members (.ok found) conversion.nothing

/-- What the editor gets for any other success. -/
theorem Gets.converts {found : α} {value : Value}
    (gets : Gets conversion members (.ok found) value)
    (safe : (Json.object (members found)).isSafe = true) :
    conversion.convert? (Reply.ofResult members (.ok found)) = some value := by
  cases gets with
  | refused tooLarge => exact absurd (safe.symm.trans tooLarge) Bool.noConfusion
  | arrived tells converts =>
      cases tells
      exact converts

end Editor

end MotionSteps
