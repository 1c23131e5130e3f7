import ScopeScript.Program.Basic
import ScopeScript.Proofs.Token.Lexeme

namespace ScopeScript

/-- Words that can be names: letters only, and no keyword. -/
structure IsName (word : String) : Prop where
  ne_empty : word ≠ ""
  letters : ∀ c ∈ word.toList, isAlphabetic c = true
  free : Keyword.ofWord? word = none

instance (word : String) : Decidable (IsName word) :=
  decidable_of_iff (word ≠ "" ∧ word.toList.all isAlphabetic = true ∧ Keyword.ofWord? word = none)
    ⟨fun ⟨some?, letters, free⟩ => ⟨some?, List.all_eq_true.mp letters, free⟩,
      fun known => ⟨known.ne_empty, List.all_eq_true.mpr known.letters, known.free⟩⟩

/-- Names are the lexemes of identifiers. -/
theorem isName_iff_fits (word : String) : IsName word ↔ Kind.Fits .identifier word.toList := by
  constructor
  · rintro ⟨some?, letters, free⟩
    have fits : (Kind.ofWord (String.ofList word.toList)).Fits word.toList :=
      .word (by rwa [ne_eq, String.toList_eq_nil_iff]) letters
    rw [String.ofList_toList] at fits
    simpa only [Kind.ofWord, free] using fits
  · intro fits
    generalize known : Kind.identifier = kind at fits
    generalize spelled : word.toList = run at fits
    cases fits with
    | word some? letters =>
      rw [← spelled] at some? letters known
      refine ⟨by rwa [ne_eq, ← String.toList_eq_nil_iff], letters, ?_⟩
      rw [String.ofList_toList, Kind.ofWord] at known
      split at known
      · cases known
      · assumption
    | _ => cases known

mutual

/-- Every name in the expression can be one, and no integer is negative. -/
def Expr.WellFormed : Expr → Prop
  | .name name => IsName name
  | .integer value => 0 ≤ value.toInt
  | .boolean _ => True
  | .binary _ left right => left.WellFormed ∧ right.WellFormed
  | .ifThen condition consequence => condition.WellFormed ∧ Stmt.AllWellFormed consequence
  | .ifElse condition consequence alternative =>
    condition.WellFormed ∧ Stmt.AllWellFormed consequence ∧ Stmt.AllWellFormed alternative
  | .function parameters body => (∀ name ∈ parameters, IsName name) ∧ Stmt.AllWellFormed body
  | .call callee arguments => callee.WellFormed ∧ Expr.AllWellFormed arguments

def Expr.AllWellFormed : List Expr → Prop
  | [] => True
  | value :: more => value.WellFormed ∧ Expr.AllWellFormed more

def Stmt.WellFormed : Stmt → Prop
  | .var name value => IsName name ∧ value.WellFormed
  | .function name parameters body =>
    IsName name ∧ (∀ name ∈ parameters, IsName name) ∧ Stmt.AllWellFormed body
  | .returns value => value.WellFormed
  | .exits code => code.WellFormed
  | .expression value => value.WellFormed

def Stmt.AllWellFormed : List Stmt → Prop
  | [] => True
  | stmt :: more => stmt.WellFormed ∧ Stmt.AllWellFormed more

end

attribute [simp] Expr.WellFormed Expr.AllWellFormed Stmt.WellFormed Stmt.AllWellFormed

@[simp] theorem Expr.wellFormed_negation {operand : Expr} :
    operand.negation.WellFormed ↔ operand.WellFormed := by
  have zero : 0 ≤ (0 : Int64).toInt := by decide
  simp only [negation, Expr.WellFormed, zero, true_and]

theorem Expr.allWellFormed_iff {values : List Expr} :
    Expr.AllWellFormed values ↔ ∀ value ∈ values, value.WellFormed := by
  induction values with
  | nil => simp
  | cons value more ih => rw [AllWellFormed, ih, List.forall_mem_cons]

theorem Stmt.allWellFormed_iff {body : Block} :
    Stmt.AllWellFormed body ↔ ∀ stmt ∈ body, stmt.WellFormed := by
  induction body with
  | nil => simp
  | cons stmt more ih => rw [AllWellFormed, ih, List.forall_mem_cons]

/-- Every name in the program can be one, and no integer is negative. -/
def Block.WellFormed (program : Block) : Prop := Stmt.AllWellFormed program

mutual

def Expr.decideWellFormed : (value : Expr) → Decidable value.WellFormed
  | .name name => inferInstanceAs (Decidable (IsName name))
  | .integer value => inferInstanceAs (Decidable (0 ≤ value.toInt))
  | .boolean _ => .isTrue trivial
  | .binary _ left right => @instDecidableAnd _ _ left.decideWellFormed right.decideWellFormed
  | .ifThen condition consequence =>
    @instDecidableAnd _ _ condition.decideWellFormed (Stmt.decideAllWellFormed consequence)
  | .ifElse condition consequence alternative =>
    @instDecidableAnd _ _ condition.decideWellFormed
      (@instDecidableAnd _ _ (Stmt.decideAllWellFormed consequence)
        (Stmt.decideAllWellFormed alternative))
  | .function _ body => @instDecidableAnd _ _ inferInstance (Stmt.decideAllWellFormed body)
  | .call callee arguments =>
    @instDecidableAnd _ _ callee.decideWellFormed (Expr.decideAllWellFormed arguments)

def Expr.decideAllWellFormed : (values : List Expr) → Decidable (Expr.AllWellFormed values)
  | [] => .isTrue trivial
  | value :: more =>
    @instDecidableAnd _ _ value.decideWellFormed (Expr.decideAllWellFormed more)

def Stmt.decideWellFormed : (stmt : Stmt) → Decidable stmt.WellFormed
  | .var _ value => @instDecidableAnd _ _ inferInstance value.decideWellFormed
  | .function _ _ body =>
    @instDecidableAnd _ _ inferInstance
      (@instDecidableAnd _ _ inferInstance (Stmt.decideAllWellFormed body))
  | .returns value => value.decideWellFormed
  | .exits code => code.decideWellFormed
  | .expression value => value.decideWellFormed

def Stmt.decideAllWellFormed : (body : List Stmt) → Decidable (Stmt.AllWellFormed body)
  | [] => .isTrue trivial
  | stmt :: more => @instDecidableAnd _ _ stmt.decideWellFormed (Stmt.decideAllWellFormed more)

end

instance (program : Block) : Decidable program.WellFormed :=
  Stmt.decideAllWellFormed program

theorem Block.wellFormed_reverse {body : Block} :
    Stmt.AllWellFormed body.reverse ↔ Stmt.AllWellFormed body := by
  rw [Stmt.allWellFormed_iff, Stmt.allWellFormed_iff]
  simp only [List.mem_reverse]

end ScopeScript
