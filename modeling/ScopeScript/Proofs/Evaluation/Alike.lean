import ScopeScript.Evaluation.Outcome

namespace ScopeScript

/-- Functions whose parameters are the same. -/
def Closure.SameParameters (left right : Closure) : Prop :=
  left.parameters = right.parameters

/-- Functions made from the same text, in whatever scopes. -/
def Closure.SameText (left right : Closure) : Prop :=
  left.parameters = right.parameters ∧ left.body = right.body

/-- Equal integers, equal truth values, or functions that correspond. -/
inductive Value.Alike (closures : Closure → Closure → Prop) : Value → Value → Prop
  | integer (value : Int64) : Alike closures (.integer value) (.integer value)
  | boolean (value : Bool) : Alike closures (.boolean value) (.boolean value)
  | function {left right : Closure} :
    closures left right → Alike closures (.function left) (.function right)

inductive Interrupt.Alike (closures : Closure → Closure → Prop) : Interrupt → Interrupt → Prop
  | returned {left right : Option Value} :
    Option.Rel (Value.Alike closures) left right → Alike closures (.returned left) (.returned right)
  | exited (code : Int64) : Alike closures (.exited code) (.exited code)
  | failed (error : RuntimeError) : Alike closures (.failed error) (.failed error)
  | tooDeep : Alike closures .tooDeep .tooDeep

inductive Completion.Alike (closures : Closure → Closure → Prop) : Completion → Completion → Prop
  | finished {left right : Option Value} :
    Option.Rel (Value.Alike closures) left right → Alike closures (.finished left) (.finished right)
  | exited (code : Int64) : Alike closures (.exited code) (.exited code)

/-- The same kind of outcome with the same values, but for functions, and with the same
error. A run that is too deep is like no run that is not. -/
inductive Outcome.Alike (closures : Closure → Closure → Prop) : Outcome → Outcome → Prop
  | completed {left right : Completion} :
    left.Alike closures right → Alike closures (.completed left) (.completed right)
  | failed (error : RuntimeError) : Alike closures (.failed error) (.failed error)
  | tooDeep : Alike closures .tooDeep .tooDeep

variable {closures coarser : Closure → Closure → Prop}

/-- Values that are alike stay so when more functions correspond. -/
theorem Value.Alike.mono {left right : Value} (alike : left.Alike closures right)
    (coarse : ∀ f g, closures f g → coarser f g) : left.Alike coarser right := by
  cases alike with
  | integer value => exact .integer value
  | boolean value => exact .boolean value
  | function same => exact .function (coarse _ _ same)

/-- Operators yield no functions. -/
theorem Operator.apply_ne_function {op : Operator} {left right : Int64} {value : Value}
    (result : op.apply left right = .ok value) (closure : Closure) : value ≠ .function closure := by
  rintro rfl
  cases op with
  | divide =>
    simp only [Operator.apply] at result
    split at result <;> cases result
  | _ => cases result

/-- A value that is no function is like itself, whatever functions correspond. -/
theorem Value.Alike.of_ne_function {value : Value} (other : ∀ closure, value ≠ .function closure) :
    value.Alike closures value := by
  cases value with
  | integer value => exact .integer value
  | boolean value => exact .boolean value
  | function closure => exact absurd rfl (other closure)

theorem Value.Alike.option_mono {left right : Option Value}
    (alike : Option.Rel (Value.Alike closures) left right)
    (coarse : ∀ f g, closures f g → coarser f g) :
    Option.Rel (Value.Alike coarser) left right := by
  cases alike with
  | none => exact .none
  | some same => exact .some (same.mono coarse)

theorem Value.Alike.option_refl (reflexive : ∀ closure, closures closure closure) :
    (value : Option Value) → Option.Rel (Value.Alike closures) value value
  | none => .none
  | some (.integer value) => .some (.integer value)
  | some (.boolean value) => .some (.boolean value)
  | some (.function closure) => .some (.function (reflexive closure))

/-- Where correspondences of functions compose, those of values do. -/
theorem Value.Alike.trans {other : Closure → Closure → Prop} {left middle right : Value}
    (first : left.Alike closures middle) (second : middle.Alike other right)
    (compose : ∀ f g h, closures f g → other g h → coarser f h) : left.Alike coarser right := by
  cases first with
  | integer value =>
    cases second
    exact .integer value
  | boolean value =>
    cases second
    exact .boolean value
  | function here =>
    cases second with
    | function there => exact .function (compose _ _ _ here there)

theorem Value.Alike.option_trans {other : Closure → Closure → Prop}
    {left middle right : Option Value} (first : Option.Rel (Value.Alike closures) left middle)
    (second : Option.Rel (Value.Alike other) middle right)
    (compose : ∀ f g h, closures f g → other g h → coarser f h) :
    Option.Rel (Value.Alike coarser) left right := by
  cases first with
  | none =>
    cases second
    exact .none
  | some here =>
    cases second with
    | some there => exact .some (here.trans there compose)

theorem Interrupt.Alike.mono {left right : Interrupt} (alike : left.Alike closures right)
    (coarse : ∀ f g, closures f g → coarser f g) : left.Alike coarser right := by
  cases alike with
  | returned same => exact .returned (Value.Alike.option_mono same coarse)
  | exited code => exact .exited code
  | failed error => exact .failed error
  | tooDeep => exact .tooDeep

theorem Outcome.Alike.mono {left right : Outcome} (alike : left.Alike closures right)
    (coarse : ∀ f g, closures f g → coarser f g) : left.Alike coarser right := by
  cases alike with
  | failed error => exact .failed error
  | tooDeep => exact .tooDeep
  | completed same =>
    cases same with
    | exited code => exact .completed (.exited code)
    | finished value => exact .completed (.finished (Value.Alike.option_mono value coarse))

/-- Of outcomes that are alike both are cut off or neither is. -/
theorem Outcome.Alike.tooDeep_iff {left right : Outcome} (alike : left.Alike closures right) :
    left = .tooDeep ↔ right = .tooDeep := by
  cases alike <;> simp

end ScopeScript
