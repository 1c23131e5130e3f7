import Mathlib
import ScopeScript.Proofs.Program.Names
import ScopeScript.Proofs.Program.Readability
import ScopeScript.Proofs.Program.WellFormed

namespace ScopeScript

theorem IsName.ne_word {name : String} (named : IsName name) (keyword : Keyword) :
    name ≠ keyword.word := by
  rintro rfl
  have free := named.free
  rw [Keyword.ofWord?_word] at free
  exact Option.some_ne_none _ free

theorem separates_of_isAlphabetic {c : Char} (letter : isAlphabetic c = true) :
    Sexpr.separates c = false := by
  refine Bool.eq_false_iff.mpr fun separator => ?_
  rcases Sexpr.separates_cases separator with rfl | rfl | rfl | rfl
  · exact Punctuation.character_ne_of_isAlphabetic letter .leftParen rfl
  · exact Punctuation.character_ne_of_isAlphabetic letter .rightParen rfl
  · exact absurd (isBlank_of_isAlphabetic letter) (by decide)
  · exact absurd (isBlank_of_isAlphabetic letter) (by decide)

/-- A name stands in a listing as one atom, with nothing in it that separates. -/
theorem IsName.isAtom {name : String} (named : IsName name) : Sexpr.IsAtom name :=
  ⟨named.ne_empty, fun c member => separates_of_isAlphabetic (named.letters c member)⟩

/-- Decimal texts are made of digits and a sign. -/
theorem mem_repr {number : Int} {c : Char} (member : c ∈ number.repr.toList) :
    c = '-' ∨ c.isDigit = true := by
  have digits (n : Nat) (member : c ∈ n.repr.toList) : c.isDigit = true := by
    rw [Nat.toList_repr] at member
    exact Nat.isDigit_of_mem_toDigits (by decide) (by decide) member
  rw [Int.repr_eq_if] at member
  split at member
  · exact .inr (digits _ member)
  · rw [String.toList_append, List.mem_append] at member
    rcases member with sign | magnitude
    · exact .inl (List.mem_singleton.mp sign)
    · exact .inr (digits _ magnitude)

theorem repr_ne_empty (number : Int) : number.repr ≠ "" := by
  rw [Int.repr_eq_if]
  split
  · exact Nat.repr_ne_empty
  · intro empty
    exact Nat.repr_ne_empty (String.append_eq_empty_iff.mp empty).2

/-- A number stands in a listing as one atom, whatever its sign. -/
theorem isAtom_repr (number : Int) : Sexpr.IsAtom number.repr := by
  refine ⟨repr_ne_empty number, fun c member => ?_⟩
  rcases mem_repr member with rfl | digit
  · rfl
  · refine Bool.eq_false_iff.mpr fun separator => ?_
    rcases Sexpr.separates_cases separator with rfl | rfl | rfl | rfl <;>
      exact absurd digit (by decide)

theorem repr_ne_truth (number : Int) (truth : Bool) :
    number.repr ≠ if truth then "true" else "false" := by
  intro same
  have letter : 'e' ∈ number.repr.toList := by
    rw [same]
    cases truth <;> decide
  exact absurd (mem_repr letter) (by decide)

/-- A name begins with a letter and a number does not. -/
theorem IsName.ne_repr {name : String} (named : IsName name) (number : Int) :
    name ≠ number.repr := by
  rintro rfl
  obtain ⟨c, text, spelled⟩ := List.exists_cons_of_ne_nil
    (mt String.toList_eq_nil_iff.mp (repr_ne_empty number))
  have first : c ∈ number.repr.toList := spelled ▸ List.mem_cons_self
  have letter := named.letters c first
  rcases mem_repr first with rfl | digit
  · exact Punctuation.character_ne_of_isAlphabetic letter .minus rfl
  · rw [isDigit_of_isAlphabetic letter] at digit
    exact Bool.false_ne_true digit

theorem Operator.symbol_inj {op other : Operator} : op.symbol = other.symbol ↔ op = other := by
  cases op <;> cases other <;> simp [symbol]

theorem Operator.isAtom_symbol (op : Operator) : Sexpr.IsAtom op.symbol := by
  cases op <;> decide

/-- The words that begin lists of other shapes than an operation. -/
def headWords : List String := ["if", "gorlami", "call", "var", "return", "exit"]

theorem Operator.symbol_ne_head (op : Operator) {head : String} (known : head ∈ headWords) :
    op.symbol ≠ head := by
  have apart : ∀ head ∈ headWords, op.symbol ≠ head := by cases op <;> decide
  exact apart head known

/-- All of these words can be names. -/
def Named (names : List String) : Prop := ∀ name ∈ names, IsName name

instance (names : List String) : Decidable (Named names) :=
  inferInstanceAs (Decidable (∀ name ∈ names, IsName name))

@[simp] theorem named_append {names more : List String} :
    Named (names ++ more) ↔ Named names ∧ Named more :=
  List.forall_mem_append

@[simp] theorem named_cons {name : String} {names : List String} :
    Named (name :: names) ↔ IsName name ∧ Named names :=
  List.forall_mem_cons

@[simp] theorem named_nil : Named [] := List.forall_mem_nil _

theorem Sexpr.solid_names {names : List String} (named : Named names) : (Sexpr.names names).Solid := by
  unfold Sexpr.names Sexpr.Solid
  induction names with
  | nil => exact trivial
  | cons name names ih => exact ⟨(named_cons.mp named).1.isAtom, ih (named_cons.mp named).2⟩

theorem Sexpr.names_injective {names others : List String} (same : Sexpr.names names = .names others) :
    names = others :=
  (List.map_inj_right fun _ _ => Sexpr.atom.inj).mp (Sexpr.list.inj same)

theorem Sexpr.Solid.block {body : List Sexpr} (solid : Sexpr.AllSolid body) :
    (Sexpr.list (.atom "block" :: body)).Solid :=
  ⟨by decide, solid⟩

mutual

theorem Expr.solid_toSexpr : (value : Expr) → Named value.names → value.toSexpr.Solid
  | .name name, named => (named_cons.mp named).1.isAtom
  | .integer value, _ => isAtom_repr value.toInt
  | .boolean true, _ => by exact (by decide : Sexpr.IsAtom "true")
  | .boolean false, _ => by exact (by decide : Sexpr.IsAtom "false")
  | .binary op left right, named => by
    obtain ⟨first, second⟩ := named_append.mp named
    exact ⟨op.isAtom_symbol, left.solid_toSexpr first, right.solid_toSexpr second, trivial⟩
  | .ifThen condition consequence, named => by
    obtain ⟨first, second⟩ := named_append.mp named
    exact ⟨by decide, condition.solid_toSexpr first,
      .block (Stmt.solid_toSexprs consequence second), trivial⟩
  | .ifElse condition consequence alternative, named => by
    obtain ⟨firsts, third⟩ := named_append.mp named
    obtain ⟨first, second⟩ := named_append.mp firsts
    exact ⟨by decide, condition.solid_toSexpr first,
      .block (Stmt.solid_toSexprs consequence second),
      .block (Stmt.solid_toSexprs alternative third), trivial⟩
  | .function parameters body, named => by
    obtain ⟨first, second⟩ := named_append.mp named
    exact ⟨by decide, Sexpr.solid_names first,
      .block (Stmt.solid_toSexprs body second), trivial⟩
  | .call callee arguments, named => by
    obtain ⟨first, second⟩ := named_append.mp named
    exact ⟨by decide, callee.solid_toSexpr first, Expr.solid_toSexprs arguments second⟩

theorem Expr.solid_toSexprs : (values : List Expr) → Named (Expr.namesAll values) →
    Sexpr.AllSolid (Expr.toSexprs values)
  | [], _ => trivial
  | value :: more, named => by
    obtain ⟨first, second⟩ := named_append.mp named
    exact ⟨value.solid_toSexpr first, Expr.solid_toSexprs more second⟩

theorem Stmt.solid_toSexpr : (stmt : Stmt) → Named stmt.names → stmt.toSexpr.Solid
  | .var name value, named => by
    obtain ⟨first, second⟩ := named_cons.mp named
    exact ⟨by decide, first.isAtom, value.solid_toSexpr second, trivial⟩
  | .function name parameters body, named => by
    obtain ⟨first, more⟩ := named_cons.mp named
    obtain ⟨second, third⟩ := named_append.mp more
    exact ⟨by decide, first.isAtom, Sexpr.solid_names second,
      .block (Stmt.solid_toSexprs body third), trivial⟩
  | .returns value, named => ⟨by decide, value.solid_toSexpr named, trivial⟩
  | .exits code, named => ⟨by decide, code.solid_toSexpr named, trivial⟩
  | .expression value, named => value.solid_toSexpr named

theorem Stmt.solid_toSexprs : (body : List Stmt) → Named (Stmt.namesAll body) →
    Sexpr.AllSolid (Stmt.toSexprs body)
  | [], _ => trivial
  | stmt :: more, named => by
    obtain ⟨first, second⟩ := named_append.mp named
    exact ⟨stmt.solid_toSexpr first, Stmt.solid_toSexprs more second⟩

end

@[simp] theorem Expr.toSexpr_boolean (truth : Bool) :
    (Expr.boolean truth).toSexpr = .atom (if truth then "true" else "false") := by
  cases truth <;> rfl

/-- No operation has the shape of anything else. -/
theorem Operator.list_symbol_ne (op : Operator) {head : String} (known : head ∈ headWords)
    (items others : List Sexpr) :
    Sexpr.list (.atom op.symbol :: items) ≠ .list (.atom head :: others) := by
  simp [op.symbol_ne_head known]

/-- Expressions have no shape that marks a statement. -/
theorem Expr.toSexpr_ne_marked (value : Expr) {head : String}
    (marks : head ∈ ["var", "return", "exit"]) (items : List Sexpr) :
    value.toSexpr ≠ .list (.atom head :: items) := by
  have known : head ∈ headWords := List.mem_of_mem_drop (i := 3) marks
  cases value with
  | binary op left right => exact op.list_symbol_ne known _ items
  | boolean truth => simp
  | _ =>
    simp only [List.mem_cons, List.not_mem_nil, or_false] at marks
    rcases marks with rfl | rfl | rfl <;> simp [toSexpr]

/-- A function that is a value has no name in its list. -/
theorem Expr.toSexpr_ne_function (value : Expr) (name : String) (parameters : List String)
    (body : Sexpr) :
    value.toSexpr ≠ .list [.atom "gorlami", .atom name, .names parameters, body] := by
  cases value with
  | binary op left right => exact op.list_symbol_ne (by decide) _ _
  | boolean truth => simp
  | _ => simp [toSexpr]

mutual

/-- Expressions of one shape are the same. -/
theorem Expr.toSexpr_injective : (value other : Expr) → Named value.names → Named other.names →
    value.toSexpr = other.toSexpr → value = other
  | .name word, other, named, otherNamed, same => by
    have known := (named_cons.mp named).1
    cases other with
    | name another => exact congrArg Expr.name (Sexpr.atom.inj same)
    | integer number => exact absurd (Sexpr.atom.inj same) (known.ne_repr number.toInt)
    | boolean truth =>
      cases truth with
      | true => exact absurd (Sexpr.atom.inj same) (known.ne_word .trueWord)
      | false => exact absurd (Sexpr.atom.inj same) (known.ne_word .falseWord)
    | _ => simp [Expr.toSexpr] at same
  | .integer value, other, named, otherNamed, same => by
    cases other with
    | name another =>
      exact absurd (Sexpr.atom.inj same).symm ((named_cons.mp otherNamed).1.ne_repr value.toInt)
    | integer number =>
      exact congrArg Expr.integer (Int64.toInt_inj.mp (Int.repr_inj.mp (Sexpr.atom.inj same)))
    | boolean truth =>
      rw [Expr.toSexpr_boolean] at same
      exact absurd (Sexpr.atom.inj same) (repr_ne_truth value.toInt truth)
    | _ => simp [Expr.toSexpr] at same
  | .boolean value, other, _, otherNamed, same => by
    rw [Expr.toSexpr_boolean] at same
    cases other with
    | name another =>
      have known := (named_cons.mp otherNamed).1
      cases value with
      | true => exact absurd (Sexpr.atom.inj same).symm (known.ne_word .trueWord)
      | false => exact absurd (Sexpr.atom.inj same).symm (known.ne_word .falseWord)
    | integer number => exact absurd (Sexpr.atom.inj same).symm (repr_ne_truth number.toInt value)
    | boolean truth =>
      rw [Expr.toSexpr_boolean] at same
      cases value <;> cases truth <;> simp at same ⊢
    | _ => simp [Expr.toSexpr] at same
  | .binary op left right, other, named, otherNamed, same => by
    obtain ⟨first, second⟩ := named_append.mp named
    cases other with
    | binary another more last =>
      simp only [Expr.toSexpr, Sexpr.list.injEq, List.cons.injEq, Sexpr.atom.injEq, and_true] at same
      obtain ⟨otherFirst, otherSecond⟩ := named_append.mp otherNamed
      obtain ⟨ops, lefts, rights⟩ := same
      rw [Operator.symbol_inj.mp ops, left.toSexpr_injective _ first otherFirst lefts,
        right.toSexpr_injective _ second otherSecond rights]
    | name | integer | boolean => simp [Expr.toSexpr] at same
    | _ => exact absurd same (op.list_symbol_ne (by decide) _ _)
  | .ifThen condition consequence, other, named, otherNamed, same => by
    obtain ⟨first, second⟩ := named_append.mp named
    cases other with
    | ifThen another more =>
      obtain ⟨otherFirst, otherSecond⟩ := named_append.mp otherNamed
      simp only [Expr.toSexpr, Sexpr.list.injEq, List.cons.injEq, true_and, and_true] at same
      obtain ⟨conditions, blocks⟩ := same
      rw [condition.toSexpr_injective _ first otherFirst conditions,
        Stmt.toSexprs_injective consequence _ second otherSecond blocks]
    | binary op left right => exact absurd same.symm (op.list_symbol_ne (by decide) _ _)
    | _ => simp [Expr.toSexpr] at same
  | .ifElse condition consequence alternative, other, named, otherNamed, same => by
    obtain ⟨firsts, third⟩ := named_append.mp named
    obtain ⟨first, second⟩ := named_append.mp firsts
    cases other with
    | ifElse another more last =>
      obtain ⟨otherFirsts, otherThird⟩ := named_append.mp otherNamed
      obtain ⟨otherFirst, otherSecond⟩ := named_append.mp otherFirsts
      simp only [Expr.toSexpr, Sexpr.list.injEq, List.cons.injEq, true_and, and_true] at same
      obtain ⟨conditions, blocks, others⟩ := same
      rw [condition.toSexpr_injective _ first otherFirst conditions,
        Stmt.toSexprs_injective consequence _ second otherSecond blocks,
        Stmt.toSexprs_injective alternative _ third otherThird others]
    | binary op left right => exact absurd same.symm (op.list_symbol_ne (by decide) _ _)
    | _ => simp [Expr.toSexpr] at same
  | .function parameters body, other, named, otherNamed, same => by
    obtain ⟨first, second⟩ := named_append.mp named
    cases other with
    | function others more =>
      obtain ⟨otherFirst, otherSecond⟩ := named_append.mp otherNamed
      simp only [Expr.toSexpr, Sexpr.list.injEq, List.cons.injEq, true_and, and_true] at same
      obtain ⟨names, blocks⟩ := same
      rw [Sexpr.names_injective names, Stmt.toSexprs_injective body _ second otherSecond blocks]
    | binary op left right => exact absurd same.symm (op.list_symbol_ne (by decide) _ _)
    | _ => simp [Expr.toSexpr] at same
  | .call callee arguments, other, named, otherNamed, same => by
    obtain ⟨first, second⟩ := named_append.mp named
    cases other with
    | call another more =>
      obtain ⟨otherFirst, otherSecond⟩ := named_append.mp otherNamed
      simp only [Expr.toSexpr, Sexpr.list.injEq, List.cons.injEq, true_and] at same
      obtain ⟨callees, values⟩ := same
      rw [callee.toSexpr_injective _ first otherFirst callees,
        Expr.toSexprs_injective arguments _ second otherSecond values]
    | binary op left right => exact absurd same.symm (op.list_symbol_ne (by decide) _ _)
    | _ => simp [Expr.toSexpr] at same

theorem Expr.toSexprs_injective : (values others : List Expr) → Named (Expr.namesAll values) →
    Named (Expr.namesAll others) → Expr.toSexprs values = Expr.toSexprs others → values = others
  | [], [], _, _, _ => rfl
  | [], _ :: _, _, _, same => absurd same (List.cons_ne_nil _ _).symm
  | _ :: _, [], _, _, same => absurd same (List.cons_ne_nil _ _)
  | value :: more, other :: others, named, otherNamed, same => by
    obtain ⟨first, second⟩ := named_append.mp named
    obtain ⟨otherFirst, otherSecond⟩ := named_append.mp otherNamed
    obtain ⟨here, later⟩ := List.cons.inj same
    rw [value.toSexpr_injective other first otherFirst here,
      Expr.toSexprs_injective more others second otherSecond later]

/-- So are statements of one shape. -/
theorem Stmt.toSexpr_injective : (stmt other : Stmt) → Named stmt.names → Named other.names →
    stmt.toSexpr = other.toSexpr → stmt = other
  | .var word value, other, named, otherNamed, same => by
    obtain ⟨_, second⟩ := named_cons.mp named
    cases other with
    | var another more =>
      obtain ⟨_, otherSecond⟩ := named_cons.mp otherNamed
      simp only [Stmt.toSexpr, Sexpr.list.injEq, List.cons.injEq, Sexpr.atom.injEq, true_and,
        and_true] at same
      obtain ⟨words, values⟩ := same
      rw [words, value.toSexpr_injective _ second otherSecond values]
    | expression more => exact absurd same.symm (more.toSexpr_ne_marked (by decide) _)
    | _ => simp [Stmt.toSexpr] at same
  | .function word parameters body, other, named, otherNamed, same => by
    obtain ⟨_, more⟩ := named_cons.mp named
    obtain ⟨_, third⟩ := named_append.mp more
    cases other with
    | function another others last =>
      obtain ⟨_, otherMore⟩ := named_cons.mp otherNamed
      obtain ⟨_, otherThird⟩ := named_append.mp otherMore
      simp only [Stmt.toSexpr, Sexpr.list.injEq, List.cons.injEq, Sexpr.atom.injEq, true_and,
        and_true] at same
      obtain ⟨words, names, blocks⟩ := same
      rw [words, Sexpr.names_injective names, Stmt.toSexprs_injective body _ third otherThird blocks]
    | expression value => exact absurd same.symm (value.toSexpr_ne_function word parameters _)
    | _ => simp [Stmt.toSexpr] at same
  | .returns value, other, named, otherNamed, same => by
    cases other with
    | returns more =>
      simp only [Stmt.toSexpr, Sexpr.list.injEq, List.cons.injEq, true_and, and_true] at same
      rw [value.toSexpr_injective _ named otherNamed same]
    | expression more => exact absurd same.symm (more.toSexpr_ne_marked (by decide) _)
    | _ => simp [Stmt.toSexpr] at same
  | .exits code, other, named, otherNamed, same => by
    cases other with
    | exits more =>
      simp only [Stmt.toSexpr, Sexpr.list.injEq, List.cons.injEq, true_and, and_true] at same
      rw [code.toSexpr_injective _ named otherNamed same]
    | expression more => exact absurd same.symm (more.toSexpr_ne_marked (by decide) _)
    | _ => simp [Stmt.toSexpr] at same
  | .expression value, other, named, otherNamed, same => by
    cases other with
    | expression more => rw [value.toSexpr_injective _ named otherNamed same]
    | function name parameters body => exact absurd same (value.toSexpr_ne_function name parameters _)
    | var name more => exact absurd same (value.toSexpr_ne_marked (by decide) _)
    | returns more => exact absurd same (value.toSexpr_ne_marked (by decide) _)
    | exits more => exact absurd same (value.toSexpr_ne_marked (by decide) _)

theorem Stmt.toSexprs_injective : (body other : List Stmt) → Named (Stmt.namesAll body) →
    Named (Stmt.namesAll other) → Stmt.toSexprs body = Stmt.toSexprs other → body = other
  | [], [], _, _, _ => rfl
  | [], _ :: _, _, _, same => absurd same (List.cons_ne_nil _ _).symm
  | _ :: _, [], _, _, same => absurd same (List.cons_ne_nil _ _)
  | stmt :: more, other :: others, named, otherNamed, same => by
    obtain ⟨first, second⟩ := named_append.mp named
    obtain ⟨otherFirst, otherSecond⟩ := named_append.mp otherNamed
    obtain ⟨here, later⟩ := List.cons.inj same
    rw [stmt.toSexpr_injective other first otherFirst here,
      Stmt.toSexprs_injective more others second otherSecond later]

end

theorem Block.newline_not_mem_line {program : Block} (named : Named program.names) :
    ∀ line ∈ program.map fun stmt => stmt.toSexpr.render.toList, '\n' ∉ line := by
  induction program with
  | nil => simp
  | cons stmt more ih =>
    obtain ⟨first, second⟩ := named_append.mp named
    exact List.forall_mem_cons.mpr
      ⟨Sexpr.newline_not_mem_render _ (stmt.solid_toSexpr first), ih second⟩

/-- The lines of a listing are the statements of the program. -/
theorem Block.splitOn_listing {program : Block} (named : Named program.names)
    (nonempty : program ≠ []) :
    program.listing.toList.splitOn '\n' = program.map fun stmt => stmt.toSexpr.render.toList := by
  have lines : program.listing.toList =
      ['\n'].intercalate (program.map fun stmt => stmt.toSexpr.render.toList) := by
    rw [Block.listing, String.toList_intercalate, List.map_map]
    rfl
  rw [lines]
  exact List.splitOn_intercalate '\n' (newline_not_mem_line named)
    (List.map_eq_nil_iff.not.mpr nonempty)

theorem Block.eq_of_lines {program other : Block} (named : Named program.names)
    (otherNamed : Named other.names)
    (same : (program.map fun stmt => stmt.toSexpr.render.toList) =
      other.map fun stmt => stmt.toSexpr.render.toList) : program = other := by
  induction program generalizing other with
  | nil => exact (List.map_eq_nil_iff.mp same.symm).symm
  | cons stmt more ih =>
    cases other with
    | nil => exact absurd same (List.cons_ne_nil _ _)
    | cons another others =>
      obtain ⟨first, second⟩ := named_append.mp named
      obtain ⟨otherFirst, otherSecond⟩ := named_append.mp otherNamed
      obtain ⟨here, later⟩ := List.cons.inj same
      have shapes := Sexpr.render_injective (stmt.solid_toSexpr first)
        (another.solid_toSexpr otherFirst) (String.toList_inj.mp here)
      rw [stmt.toSexpr_injective another first otherFirst shapes, ih second otherSecond later]

/-- A program with statements has a listing with characters. -/
theorem Block.listing_ne_empty {program : Block} (named : Named program.names)
    (nonempty : program ≠ []) : program.listing ≠ Block.listing [] := by
  intro same
  have lines := splitOn_listing named nonempty
  rw [same] at lines
  obtain ⟨stmt, more, rfl⟩ := List.exists_cons_of_ne_nil nonempty
  obtain ⟨first, _⟩ := named_append.mp named
  obtain ⟨c, text, begins, _⟩ := Sexpr.exists_head_render (stmt.solid_toSexpr first)
  rw [List.map_cons, begins] at lines
  exact absurd (List.cons.inj lines).1.symm (List.cons_ne_nil _ _)

/-- A listing tells the program: no two programs whose names can be names have the same one,
and it has a line for each statement. -/
theorem listing_tells_program {program other : Block} (named : Named program.names)
    (otherNamed : Named other.names) :
    (program.listing = other.listing → program = other) ∧
      (program ≠ [] → (program.listing.toList.splitOn '\n').length = program.length) := by
  refine ⟨fun same => ?_, fun nonempty => ?_⟩
  · by_cases none : program = []
    · subst none
      by_contra some?
      exact Block.listing_ne_empty otherNamed (Ne.symm some?) same.symm
    by_cases otherNone : other = []
    · subst otherNone
      exact absurd same (Block.listing_ne_empty named none)
    have lines := Block.splitOn_listing named none
    rw [same, Block.splitOn_listing otherNamed otherNone] at lines
    exact Block.eq_of_lines named otherNamed lines.symm
  · rw [Block.splitOn_listing named nonempty, List.length_map]

/-- A function statement, a negative number and a name, all spelled as the marks of other
shapes are. -/
def spelledAsMarks : Block :=
  [.function "call" ["block"] [.returns (.integer (-1))],
    .expression (.binary .subtract (.integer (-1)) (.name "return"))]

/-- The function without its name, and a call in the place of the difference. -/
def spelledAlike : Block :=
  [.expression (.function ["block"] [.returns (.integer (-1))]),
    .expression (.call (.integer (-1)) [.name "return"])]

theorem listing_tells_program_of_marks :
    Named spelledAsMarks.names ∧ Named spelledAlike.names ∧
      spelledAsMarks.listing ≠ spelledAlike.listing ∧
      (spelledAsMarks.listing.toList.splitOn '\n').length = 2 := by
  have named : Named spelledAsMarks.names := by decide
  have otherNamed : Named spelledAlike.names := by decide
  obtain ⟨unique, lines⟩ := listing_tells_program named otherNamed
  refine ⟨named, otherNamed, fun same => ?_, lines (List.cons_ne_nil _ _)⟩
  exact Stmt.noConfusion (List.cons.inj (unique same)).1

end ScopeScript
