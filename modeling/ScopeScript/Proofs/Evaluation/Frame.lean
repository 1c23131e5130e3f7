import ScopeScript.Evaluation.Basic

namespace ScopeScript

/-- The current scope is the one from before, and every scope from before has the same
link and the same bindings. Scopes may have been opened. -/
structure Machine.Kept (before after : Machine) : Prop where
  current : after.current = before.current
  opened : before.store.scopes.size ≤ after.store.scopes.size
  scopes : ∀ i < before.store.scopes.size, after.store.scopes[i]? = before.store.scopes[i]?

/-- The same of every scope but the current one. -/
structure Machine.KeptAround (before after : Machine) : Prop where
  current : after.current = before.current
  opened : before.store.scopes.size ≤ after.store.scopes.size
  scopes : ∀ i < before.store.scopes.size, i ≠ before.current →
    after.store.scopes[i]? = before.store.scopes[i]?

/-- In addition the current scope has its link from before, `name` is bound to `value`
there, and every other name is bound there as before. -/
structure Machine.Bound (name : String) (value : Value) (before after : Machine) : Prop
    extends before.KeptAround after where
  here : ∀ old, before.store.scopes[before.current]? = some old →
    ∃ now, after.store.scopes[before.current]? = some now ∧ now.enclosing = old.enclosing ∧
      now.bindings.lookup name = some value ∧
      ∀ other, other ≠ name → now.bindings.lookup other = old.bindings.lookup other

theorem Machine.Kept.refl (machine : Machine) : machine.Kept machine :=
  ⟨rfl, Nat.le_refl _, fun _ _ => rfl⟩

/-- Scopes that were opened in between are kept by the second step like all others. -/
theorem Machine.Kept.trans {before between after : Machine} (first : before.Kept between)
    (second : between.Kept after) : before.Kept after := by
  refine ⟨second.current.trans first.current, Nat.le_trans first.opened second.opened, ?_⟩
  intro i old
  have still : i < between.store.scopes.size := Nat.lt_of_lt_of_le old first.opened
  rw [second.scopes i still, first.scopes i old]

theorem Machine.Kept.around {before after : Machine} (kept : before.Kept after) :
    before.KeptAround after :=
  ⟨kept.current, kept.opened, fun i old _ => kept.scopes i old⟩

/-- Both steps run in the same scope, so it is one scope that may change. -/
theorem Machine.KeptAround.trans {before between after : Machine}
    (first : before.KeptAround between) (second : between.KeptAround after) :
    before.KeptAround after := by
  refine ⟨second.current.trans first.current, Nat.le_trans first.opened second.opened, ?_⟩
  intro i old other
  have still : i < between.store.scopes.size := Nat.lt_of_lt_of_le old first.opened
  have apart : i ≠ between.current := first.current ▸ other
  rw [second.scopes i still apart, first.scopes i old other]

/-- A binding behind an evaluation that kept the scopes is the only change. -/
theorem Machine.Kept.define {before after : Machine} (kept : before.Kept after) (name : String)
    (value : Value) :
    before.Bound name value { after with store := after.store.define after.current name value } := by
  refine ⟨⟨kept.current, ?_, ?_⟩, ?_⟩
  · simpa using kept.opened
  · intro i old other
    have apart : i ≠ after.current := kept.current ▸ other
    rw [Store.getElem?_define_of_ne apart, kept.scopes i old]
  · intro old atCurrent
    have there : before.current < before.store.scopes.size :=
      (Array.getElem?_eq_some_iff.mp atCurrent).1
    have same : after.store.scopes[before.current]? = some old := by
      rw [kept.scopes _ there, atCurrent]
    refine ⟨{ old with bindings := (name, value) :: old.bindings }, ?_, rfl, ?_, ?_⟩
    · rw [kept.current, Store.getElem?_define_self, same]
      rfl
    · simp
    · intro other different
      have apart : (other == name) = false := by simpa using different
      simp [List.lookup_cons, apart]

/-- Leaving a scope opened inside the evaluation leaves no trace in the older ones. -/
theorem Machine.KeptAround.leave {before inside after : Machine}
    (entered : inside.current = before.store.scopes.size)
    (opened : before.store.scopes.size ≤ inside.store.scopes.size)
    (same : ∀ i < before.store.scopes.size,
      inside.store.scopes[i]? = before.store.scopes[i]?)
    (kept : inside.KeptAround after) : before.Kept { after with current := before.current } := by
  refine ⟨rfl, Nat.le_trans opened kept.opened, ?_⟩
  intro i old
  have still : i < inside.store.scopes.size := Nat.lt_of_lt_of_le old opened
  have apart : i ≠ inside.current := by omega
  exact (kept.scopes i still apart).trans (same i old)

namespace Evaluation

/-- However the evaluation ends, the scopes from before are kept. -/
def Keeps {α : Type} (evaluation : Evaluation α) : Prop :=
  ∀ machine : Machine, machine.Kept (evaluation.perform machine).2

def KeepsAround {α : Type} (evaluation : Evaluation α) : Prop :=
  ∀ machine : Machine, machine.KeptAround (evaluation.perform machine).2

theorem Keeps.around {α : Type} {evaluation : Evaluation α} (keeps : evaluation.Keeps) :
    evaluation.KeepsAround :=
  fun machine => (keeps machine).around

theorem keeps_pure {α : Type} (result : α) : (pure result : Evaluation α).Keeps :=
  Machine.Kept.refl

theorem keeps_throw {α : Type} (interrupt : Interrupt) :
    (throw interrupt : Evaluation α).Keeps :=
  Machine.Kept.refl

theorem keeps_fail {α : Type} (error : RuntimeError) : (fail error : Evaluation α).Keeps :=
  Machine.Kept.refl

/-- What follows an evaluation may not be reached. -/
theorem perform_bind_reaches {α β : Type} {reached : Machine → Prop} {first : Evaluation α}
    {next : α → Evaluation β} {machine : Machine} (stops : reached (first.perform machine).2)
    (goesOn : ∀ result, reached ((next result).perform (first.perform machine).2).2) :
    reached ((first >>= next).perform machine).2 := by
  rw [perform_bind]
  cases ran : first.perform machine with
  | mk ending after =>
    rw [ran] at stops goesOn
    cases ending with
    | ok result => exact goesOn result
    | error interrupt => exact stops

/-- If the first evaluation is interrupted, the second one does nothing. -/
theorem Keeps.bind {α β : Type} {first : Evaluation α} {next : α → Evaluation β}
    (keeps : first.Keeps) (keepsNext : ∀ result, (next result).Keeps) :
    (first >>= next).Keeps := by
  intro machine
  have kept := keeps machine
  exact perform_bind_reaches kept fun result => kept.trans (keepsNext result _)

theorem KeepsAround.bind {α β : Type} {first : Evaluation α} {next : α → Evaluation β}
    (keeps : first.KeepsAround) (keepsNext : ∀ result, (next result).KeepsAround) :
    (first >>= next).KeepsAround := by
  intro machine
  have kept := keeps machine
  exact perform_bind_reaches kept fun result => kept.trans (keepsNext result _)

/-- Asking for a name changes nothing, also if it is unbound. -/
theorem keeps_lookup (name : String) : (lookup name).Keeps := by
  intro machine
  rw [perform_lookup]
  split <;> exact .refl machine

/-- A closure is counted, but no scope learns of it. -/
theorem keeps_capture (parameters : List String) (body : Block) :
    (capture parameters body).Keeps :=
  fun _ => ⟨rfl, Nat.le_refl _, fun _ _ => rfl⟩

theorem keeps_present (use : Use) (value : Option Value) : (present use value).Keeps := by
  cases value with
  | none => exact keeps_fail _
  | some value => exact keeps_pure value

/-- An operand of the wrong type is an error, which changes nothing. -/
theorem keeps_integer (use : Use) (value : Option Value) : (integer use value).Keeps := by
  unfold integer
  split
  · exact keeps_pure _
  · exact keeps_fail _

theorem keeps_boolean (use : Use) (value : Option Value) : (boolean use value).Keeps := by
  unfold boolean
  split
  · exact keeps_pure _
  · exact keeps_fail _

theorem keeps_callable (value : Option Value) : (callable value).Keeps := by
  unfold callable
  split
  · exact keeps_pure _
  · exact keeps_fail _

/-- A return that is caught leaves the machine as it was where it was thrown. -/
theorem perform_untilReturn_snd (body : Evaluation (Option Value)) (machine : Machine) :
    ((untilReturn body).perform machine).2 = (body.perform machine).2 := by
  rw [perform_untilReturn]
  split
  · rename_i value after run
    rw [run]
  · rfl

/-- An evaluation in the scope that was opened for it keeps all older scopes, whatever
it binds in its own. -/
theorem KeepsAround.within_opened {α : Type} {body : Evaluation α} (keeps : body.KeepsAround)
    (enclosing : Nat) (names : List String) (values : List Value) :
    (openScope enclosing names values >>= fun scope => within scope body).Keeps := by
  intro machine
  rw [perform_bind, perform_openScope]
  refine (keeps _).leave rfl ?_ ?_
  · simp
  · intro i old
    have apart : i ≠ machine.store.scopes.size := Nat.ne_of_lt old
    rw [Store.getElem?_defineAll_of_ne apart, Store.getElem?_push_of_lt old]

/-- A branch binds its names in a scope of its own. -/
theorem KeepsAround.nested {α : Type} {body : Evaluation α} (keeps : body.KeepsAround) :
    (nested body).Keeps :=
  fun machine => keeps.within_opened machine.current [] [] machine

end Evaluation

open Evaluation

/-- The name that a statement binds when it comes to its end. -/
def Stmt.binds? : Stmt → Option String
  | .var name _ => some name
  | .function name _ _ => some name
  | _ => none

/-- What a statement that may bind a name leaves behind. Only the normal end of a
binding changes a scope from before, and then in that name alone. -/
def Machine.Framed (binds : Option String) (before : Machine) :
    Except Interrupt (Option Value) × Machine → Prop
  | (.ok value, after) =>
    match binds with
    | some name => ∃ bound, value = some bound ∧ before.Bound name bound after
    | none => before.Kept after
  | (.error _, after) => before.Kept after

theorem Machine.Framed.of_kept {before : Machine} {ran : Except Interrupt (Option Value) × Machine}
    (kept : before.Kept ran.2) : before.Framed none ran := by
  obtain ⟨ending, after⟩ := ran
  cases ending with
  | ok value => exact kept
  | error interrupt => exact kept

/-- A binding is made in the current scope, so all others are kept. -/
theorem Machine.Framed.around {binds : Option String} {before : Machine}
    {ran : Except Interrupt (Option Value) × Machine} (framed : before.Framed binds ran) :
    before.KeptAround ran.2 := by
  obtain ⟨ending, after⟩ := ran
  cases ending with
  | error interrupt => exact Machine.Kept.around framed
  | ok value =>
    cases binds with
    | none => exact Machine.Kept.around framed
    | some name =>
      obtain ⟨bound, _, change⟩ := framed
      exact change.toKeptAround

/-- What is evaluated ahead of a binding keeps the scopes. -/
theorem Machine.Framed.bind {α : Type} {name : String} {first : Evaluation α}
    {next : α → Evaluation (Option Value)} {before between : Machine}
    (kept : before.Kept between) (keeps : first.Keeps)
    (framed : ∀ result after, before.Kept after →
      before.Framed (some name) ((next result).perform after)) :
    before.Framed (some name) ((first >>= next).perform between) := by
  have still := kept.trans (keeps between)
  rw [perform_bind]
  split
  · rename_i result after run
    rw [run] at still
    exact framed result after still
  · rename_i interrupt after run
    rw [run] at still
    exact still

theorem Machine.Framed.define {name : String} {value : Value} {before after : Machine}
    (kept : before.Kept after) :
    before.Framed (some name)
      ((do Evaluation.define name value; return some value : Evaluation (Option Value)).perform after) :=
  ⟨value, rfl, kept.define name value⟩

mutual

theorem Expr.eval_keeps {call : Caller}
    (calls : ∀ closure values, (call closure values).Keeps) :
    (expr : Expr) → (expr.eval call).Keeps
  | .name name => by
    unfold Expr.eval
    exact (keeps_lookup name).bind fun value => keeps_pure _
  | .integer value => by
    unfold Expr.eval
    exact keeps_pure _
  | .boolean value => by
    unfold Expr.eval
    exact keeps_pure _
  | .binary op left right => by
    unfold Expr.eval
    refine (left.eval_keeps calls).bind fun first => (keeps_integer _ first).bind fun i => ?_
    refine (right.eval_keeps calls).bind fun second => (keeps_integer _ second).bind fun j => ?_
    split
    · exact keeps_pure _
    · exact keeps_fail _
  | .ifThen condition consequence => by
    unfold Expr.eval
    refine (condition.eval_keeps calls).bind fun value => (keeps_boolean _ value).bind fun holds => ?_
    split
    · exact (Stmt.execAll_keepsAround calls none consequence).nested
    · exact keeps_pure none
  | .ifElse condition consequence alternative => by
    unfold Expr.eval
    refine (condition.eval_keeps calls).bind fun value => (keeps_boolean _ value).bind fun holds => ?_
    split
    · exact (Stmt.execAll_keepsAround calls none consequence).nested
    · exact (Stmt.execAll_keepsAround calls none alternative).nested
  | .function parameters body => by
    unfold Expr.eval
    exact (keeps_capture parameters body).bind fun value => keeps_pure _
  | .call callee arguments => by
    unfold Expr.eval
    refine (callee.eval_keeps calls).bind fun value => (keeps_callable value).bind fun closure => ?_
    split
    · exact (Expr.evalAll_keeps calls arguments).bind fun values => calls closure values
    · exact keeps_fail _

theorem Expr.evalAll_keeps {call : Caller}
    (calls : ∀ closure values, (call closure values).Keeps) :
    (arguments : List Expr) → (Expr.evalAll call arguments).Keeps
  | [] => by
    unfold Expr.evalAll
    exact keeps_pure []
  | argument :: more => by
    unfold Expr.evalAll
    refine (argument.eval_keeps calls).bind fun first => (keeps_present _ first).bind fun value => ?_
    exact (Expr.evalAll_keeps calls more).bind fun values => keeps_pure _

theorem Stmt.exec_framed {call : Caller}
    (calls : ∀ closure values, (call closure values).Keeps) (before : Machine) :
    (stmt : Stmt) → before.Framed stmt.binds? ((stmt.exec call).perform before)
  | .var name value => by
    unfold Stmt.exec
    refine .bind (.refl before) (value.eval_keeps calls) fun first between kept => ?_
    exact .bind kept (keeps_present _ first) fun bound after still => .define still
  | .function name parameters body => by
    unfold Stmt.exec
    exact .bind (.refl before) (keeps_capture parameters body) fun value after kept => .define kept
  | .returns value => by
    unfold Stmt.exec
    exact .of_kept ((value.eval_keeps calls).bind (fun result => keeps_throw _) before)
  | .exits code => by
    unfold Stmt.exec
    refine .of_kept ((code.eval_keeps calls).bind (fun result => ?_) before)
    exact (keeps_integer _ result).bind fun value => keeps_throw _
  | .expression value => by
    unfold Stmt.exec
    exact .of_kept (value.eval_keeps calls before)

/-- Statements in a row may bind names in the current scope, and nowhere else. -/
theorem Stmt.execAll_keepsAround {call : Caller}
    (calls : ∀ closure values, (call closure values).Keeps) (last : Option Value) :
    (stmts : List Stmt) → (Stmt.execAll call last stmts).KeepsAround
  | [] => by
    unfold Stmt.execAll
    exact (keeps_pure last).around
  | stmt :: more => by
    unfold Stmt.execAll
    have keeps : (stmt.exec call).KeepsAround := fun before =>
      (stmt.exec_framed calls before).around
    exact keeps.bind fun value => Stmt.execAll_keepsAround calls value more

end

/-- A call binds its parameters and runs its body in a scope of its own. -/
theorem invoke_keeps (depth : Nat) :
    ∀ closure values, (invoke depth closure values).Keeps := by
  induction depth with
  | zero => exact fun closure values => keeps_throw _
  | succ depth calls =>
    intro closure values machine
    have kept := (Stmt.execAll_keepsAround calls none closure.body).within_opened closure.scope
      closure.parameters values machine
    unfold invoke
    rw [perform_bind, perform_openScope] at kept ⊢
    rw [perform_untilReturn_snd]
    exact kept

/-- Evaluation changes no scope there was, whatever graph the scopes form and however it
ends. Of the statements, only a completed binding changes one: its name, in the scope
that was and is the current one. -/
theorem evaluation_frame (depth : Nat) (before : Machine) :
    (∀ expr : Expr, before.Kept ((expr.eval (invoke depth)).perform before).2) ∧
    ∀ stmt : Stmt, before.Framed stmt.binds? ((stmt.exec (invoke depth)).perform before) :=
  ⟨fun expr => expr.eval_keeps (invoke_keeps depth) before,
    fun stmt => stmt.exec_framed (invoke_keeps depth) before⟩

end ScopeScript
