import ScopeScript.Proofs.Grammar.Derivation

namespace ScopeScript

/-- The level that an expression must have to be put in a hole. -/
def Hole.level : Hole → Nat
  | .right op _ _ => op.level + 1
  | .negation _ => Operator.negationLevel
  | _ => 1

@[simp] theorem Hole.level_right (op : Operator) (left : Expr) (outer : Hole) :
    (Hole.right op left outer).level = op.level + 1 := rfl

@[simp] theorem Hole.level_negation (outer : Hole) :
    outer.negation.level = Operator.negationLevel := rfl

theorem Hole.level_le_negationLevel (hole : Hole) : hole.level ≤ Operator.negationLevel := by
  cases hole with
  | right op left outer => exact op.level_lt_negationLevel
  | negation outer => exact Nat.le_refl _
  | _ => exact Nat.le_add_left 1 3

/-- A hole that fits an operator waits for the first operand of it: no pending
operator takes the operand before. -/
theorem Hole.behind_of_level_le {op : Operator} {hole : Hole} (value : Expr)
    (fits : hole.level ≤ op.level) : hole.behind op value = .right op value hole := by
  have below := op.level_lt_negationLevel
  cases hole with
  | right pending first outer =>
    rw [Hole.level_right] at fits
    rw [Hole.behind, if_pos (by omega)]
  | negation outer =>
    rw [Hole.level_negation] at fits
    omega
  | _ => rfl

/-- The operand `value` in its hole, with the operators that wait in front of it, is
what `whole` in the hole `outer` comes from. All of them bind at `level` or tighter. -/
inductive Gathers : Nat → Expr → Hole → Expr → Hole → Prop
  | done {level : Nat} {value : Expr} {hole : Hole} : Gathers level value hole value hole
  | right {level : Nat} {op : Operator} {value left right : Expr} {hole outer : Hole} :
      level ≤ op.level → Gathers (op.level + 1) value hole right (.right op left outer) →
      Gathers level value hole (.binary op left right) outer
  | negation {level : Nat} {value operand : Expr} {hole outer : Hole} :
      level ≤ Operator.negationLevel →
      Gathers Operator.negationLevel value hole operand (.negation outer) →
      Gathers level value hole operand.negation outer

theorem Gathers.looser {high low : Nat} {value whole : Expr} {hole outer : Hole}
    (gathers : Gathers high value hole whole outer) (le : low ≤ high) :
    Gathers low value hole whole outer := by
  cases gathers with
  | done => exact .done
  | right bound rest => exact .right (Nat.le_trans le bound) rest
  | negation bound rest => exact .negation (Nat.le_trans le bound) rest

/-- No operator binds as tight as a call, so what is called stands alone. -/
theorem Gathers.of_callLevel {value whole : Expr} {hole outer : Hole}
    (gathers : Gathers Operator.callLevel value hole whole outer) :
    whole = value ∧ outer = hole := by
  cases gathers with
  | done => exact ⟨rfl, rfl⟩
  | @right _ op _ _ _ _ _ bound rest =>
    have below := op.level_lt_negationLevel
    unfold Operator.callLevel at bound
    omega
  | negation bound rest =>
    unfold Operator.callLevel at bound
    omega

/-- A token that ends an expression puts together what the pending operators hold. -/
theorem Gathers.settle {level : Nat} {value whole : Expr} {hole outer : Hole}
    (gathers : Gathers level value hole whole outer) (reader : Reader) (token : Token) :
    reader.settle token value hole = reader.settle token whole outer := by
  induction gathers with
  | done => rfl
  | right _ _ ih => rw [ih]; rfl
  | negation _ _ ih => rw [ih]; rfl

/-- So does an operator that binds no tighter than any of them. -/
theorem Gathers.behind {level : Nat} {op : Operator} {value whole : Expr} {hole outer : Hole}
    (gathers : Gathers level value hole whole outer) (le : op.level ≤ level) :
    hole.behind op value = outer.behind op whole := by
  induction gathers with
  | done => rfl
  | right bound _ ih => rw [ih (by omega), Hole.behind, if_neg (by omega)]
  | negation bound _ ih => rw [ih (by omega)]; rfl

end ScopeScript
