import ScopeScript.Evaluation.Basic

namespace ScopeScript

open Evaluation

/-- The operators that make a number of two numbers. -/
inductive Arithmetic
  | add
  | subtract
  | multiply
  | divide
  deriving DecidableEq

namespace Arithmetic

def operator : Arithmetic → Operator
  | add => .add
  | subtract => .subtract
  | multiply => .multiply
  | divide => .divide

/-- The result without bounds, a quotient cut towards zero. -/
def exact : Arithmetic → Int → Int → Int
  | add, left, right => left + right
  | subtract, left, right => left - right
  | multiply, left, right => left * right
  | divide, left, right => left.tdiv right

/-- An operation is the exact one wrapped to 64 bits. Only a division by zero has
no result; the smallest number divided by minus one has one. -/
theorem apply_operator (op : Arithmetic) (left right : Int64) :
    op.operator.apply left right =
      if op = divide ∧ right = 0 then .error .divisionByZero
      else .ok (.integer (Int64.ofInt (op.exact left.toInt right.toInt))) := by
  cases op with
  | add => simp [operator, Operator.apply, exact, Int64.ofInt_add, Int64.ofInt_toInt]
  | subtract => simp [operator, Operator.apply, exact, Int64.ofInt_sub, Int64.ofInt_toInt]
  | multiply => simp [operator, Operator.apply, exact, Int64.ofInt_mul, Int64.ofInt_toInt]
  | divide =>
    have quotient : Int64.ofInt (left.toInt.tdiv right.toInt) = left / right := by
      rw [Int64.ofInt_eq_iff_bmod_eq_toInt, Int64.toInt_div]
    simp [operator, Operator.apply, exact, quotient]

/-- Without division, operands that were wrapped before do no harm: it is the same whether every
step is wrapped or the last one alone. -/
theorem ofInt_exact_toInt {op : Arithmetic} (undivided : op ≠ divide) (left right : Int) :
    Int64.ofInt (op.exact (Int64.ofInt left).toInt (Int64.ofInt right).toInt) =
      Int64.ofInt (op.exact left right) := by
  cases op with
  | add => simp only [exact, Int64.ofInt_add, Int64.ofInt_toInt]
  | subtract => simp only [exact, Int64.ofInt_sub, Int64.ofInt_toInt]
  | multiply => simp only [exact, Int64.ofInt_mul, Int64.ofInt_toInt]
  | divide => exact absurd rfl undivided

end Arithmetic

/-- An expression of numbers alone. -/
inductive Calculation
  | literal (value : Int64)
  | combined (op : Arithmetic) (left right : Calculation)

namespace Calculation

def expr : Calculation → Expr
  | literal value => .integer value
  | combined op left right => .binary op.operator left.expr right.expr

/-- The value over all integers. -/
def exact : Calculation → Int
  | literal value => value.toInt
  | combined op left right => op.exact left.exact right.exact

def Undivided : Calculation → Prop
  | literal _ => True
  | combined op left right => op ≠ .divide ∧ left.Undivided ∧ right.Undivided

/-- No divisor is zero, and no value on the way is beyond 64 bits. -/
def Fits : Calculation → Prop
  | literal _ => True
  | combined op left right =>
    left.Fits ∧ right.Fits ∧ (op = .divide → right.exact ≠ 0) ∧
      Int64.minValue.toInt ≤ op.exact left.exact right.exact ∧
      op.exact left.exact right.exact ≤ Int64.maxValue.toInt

/-- The value when every result is wrapped; none if a divisor is then zero. -/
def value? : Calculation → Option Int64
  | literal value => some value
  | combined op left right =>
    match left.value?, right.value? with
    | some first, some second =>
      if op = .divide ∧ second = 0 then none
      else some (Int64.ofInt (op.exact first.toInt second.toInt))
    | _, _ => none

/-- Evaluation wraps every result, and the only thing in its way is a division by
zero. -/
theorem perform_expr (call : Caller) (calculation : Calculation) (machine : Machine) :
    (calculation.expr.eval call).perform machine =
      match calculation.value? with
      | some value => (.ok (some (.integer value)), machine)
      | none => (.error (.failed .divisionByZero), machine) := by
  induction calculation with
  | literal value => rfl
  | combined op left right leftIH rightIH =>
    rw [expr, Expr.eval, perform_bind, leftIH, value?]
    cases left.value? with
    | none => rfl
    | some first =>
      simp only [integer, pure_bind]
      rw [perform_bind, rightIH]
      cases right.value? with
      | none => rfl
      | some second =>
        simp only [pure_bind, op.apply_operator]
        by_cases impossible : op = .divide ∧ second = 0
        · simp only [if_pos impossible, perform_fail]
        · simp only [if_neg impossible, perform_pure]

/-- The smallest number divided by minus one is itself. -/
example : (combined .divide (literal Int64.minValue) (literal (-1))).value? =
    some Int64.minValue := by decide

/-- Without division, one wrapping at the end makes up for all. -/
theorem value?_of_undivided {calculation : Calculation} (undivided : calculation.Undivided) :
    calculation.value? = some (Int64.ofInt calculation.exact) := by
  induction calculation with
  | literal value => rw [value?, exact, Int64.ofInt_toInt]
  | combined op left right leftIH rightIH =>
    obtain ⟨notDivide, undividedLeft, undividedRight⟩ := undivided
    simp only [value?, leftIH undividedLeft, rightIH undividedRight, notDivide, false_and,
      if_false, exact, Arithmetic.ofInt_exact_toInt notDivide]

/-- Where everything fits, nothing is wrapped. -/
theorem value?_of_fits {calculation : Calculation} (fits : calculation.Fits) :
    ∃ value, calculation.value? = some value ∧ value.toInt = calculation.exact := by
  induction calculation with
  | literal value => exact ⟨value, rfl, rfl⟩
  | combined op left right leftIH rightIH =>
    obtain ⟨fitsLeft, fitsRight, divisor, lower, upper⟩ := fits
    obtain ⟨first, firstValue, firstExact⟩ := leftIH fitsLeft
    obtain ⟨second, secondValue, secondExact⟩ := rightIH fitsRight
    have possible : ¬ (op = .divide ∧ second = 0) := by
      rintro ⟨divides, rfl⟩
      exact divisor divides secondExact.symm
    refine ⟨Int64.ofInt (op.exact left.exact right.exact), ?_, ?_⟩
    · simp only [value?, firstValue, secondValue, if_neg possible, firstExact, secondExact]
    · exact Int64.toInt_ofInt_of_le lower (Int.lt_add_one_of_le upper)

/-- Evaluation on a machine comes to a number and leaves the machine as it is. -/
def Yields (call : Caller) (machine : Machine) (calculation : Calculation) (value : Int64) : Prop :=
  (calculation.expr.eval call).perform machine = (.ok (some (.integer value)), machine)

/-- Without division a calculation comes to its exact value modulo 2^64. With
division it comes to the exact value if no divisor is zero and every value on the
way fits. Any other calculation comes to a number or fails in a division by zero. -/
theorem yields_exact (call : Caller) (machine : Machine) (calculation : Calculation) :
    (calculation.Undivided →
      ∃ value, calculation.Yields call machine value ∧
        value.toInt = calculation.exact.bmod Int64.size) ∧
    (calculation.Fits →
      ∃ value, calculation.Yields call machine value ∧ value.toInt = calculation.exact) ∧
    ((∃ value, calculation.Yields call machine value) ∨
      (calculation.expr.eval call).perform machine =
        (.error (.failed .divisionByZero), machine)) := by
  simp only [Yields, perform_expr]
  refine ⟨fun undivided => ?_, fun fits => ?_, ?_⟩
  · rw [value?_of_undivided undivided]
    exact ⟨_, rfl, Int64.toInt_ofInt⟩
  · obtain ⟨value, found, exactly⟩ := value?_of_fits fits
    rw [found]
    exact ⟨value, rfl, exactly⟩
  · cases calculation.value? with
    | none => exact .inr rfl
    | some value => exact .inl ⟨value, rfl⟩

/-- A sum that overflows, a quotient cut towards zero, and the one quotient that
does not fit. -/
theorem yields_exact_at_bounds :
    (∃ value, (combined .add (literal Int64.maxValue) (literal 1)).Yields (invoke 0) .start value ∧
      value.toInt = Int64.minValue.toInt) ∧
    (∃ value, (combined .divide (literal (-7)) (literal 2)).Yields (invoke 0) .start value ∧
      value.toInt = -3) ∧
    ∃ value, (combined .divide (literal Int64.minValue) (literal (-1))).Yields (invoke 0) .start
      value := by
  refine ⟨?_, ?_, ?_⟩
  · exact (yields_exact (invoke 0) .start _).1 ⟨by decide, trivial, trivial⟩
  · exact (yields_exact (invoke 0) .start _).2.1 ⟨trivial, trivial, by decide, by decide, by decide⟩
  · refine (yields_exact (invoke 0) .start _).2.2.resolve_right fun failed => ?_
    simp [perform_expr, value?] at failed

end Calculation

end ScopeScript
