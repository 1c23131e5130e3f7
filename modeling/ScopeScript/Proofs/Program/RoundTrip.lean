import ScopeScript.Program.Source
import ScopeScript.Proofs.Program.WellFormed
import ScopeScript.Proofs.Reading.WellFormed
import ScopeScript.Proofs.Token.Joining

namespace ScopeScript

/-- Each of the words is a token when it stands alone, and tokens with just these words
have the property. -/
def Spell (words : List String) (property : List Token → Prop) : Prop :=
  ∃ spelled : List (Kind × String), spelled.map Prod.snd = words ∧ Fitting spelled ∧
    ∀ tokens : List Token, tokens.map Token.word = spelled → property tokens

namespace Spell

variable {words more : List String} {property other : List Token → Prop}

theorem mono (spell : Spell words property) (implies : ∀ tokens, property tokens → other tokens) :
    Spell words other := by
  obtain ⟨spelled, same, fits, holds⟩ := spell
  exact ⟨spelled, same, fits, fun tokens known => implies tokens (holds tokens known)⟩

theorem nil : Spell [] fun tokens => tokens = [] :=
  ⟨[], rfl, fitting_nil, fun _ => List.map_eq_nil_iff.mp⟩

theorem append (first : Spell words property) (second : Spell more other) :
    Spell (words ++ more) fun tokens =>
      ∃ before after, tokens = before ++ after ∧ property before ∧ other after := by
  obtain ⟨spelled, rfl, fits, holds⟩ := first
  obtain ⟨spelledMore, rfl, fitsMore, holdsMore⟩ := second
  refine ⟨spelled ++ spelledMore, List.map_append, fitting_append.mpr ⟨fits, fitsMore⟩, ?_⟩
  intro tokens same
  obtain ⟨before, after, rfl, known, knownMore⟩ := List.map_eq_append_iff.mp same
  exact ⟨before, after, rfl, holds before known, holdsMore after knownMore⟩

theorem cons {kind : Kind} {word : String} (fits : kind.Fits word.toList)
    (rest : Spell words property) :
    Spell (word :: words) fun tokens =>
      ∃ first after, tokens = first :: after ∧ first.kind = kind ∧ first.lexeme = word ∧
        property after := by
  obtain ⟨spelled, rfl, fitsRest, holds⟩ := rest
  refine ⟨(kind, word) :: spelled, rfl, fitting_cons.mpr ⟨fits, fitsRest⟩, ?_⟩
  intro tokens same
  obtain ⟨first, after, rfl, is, known⟩ := List.map_eq_cons_iff.mp same
  obtain ⟨isKind, isWord⟩ := Prod.mk.inj is
  exact ⟨first, after, rfl, isKind, isWord, holds after known⟩

theorem sign (sign : Punctuation) (rest : Spell words property) :
    Spell (String.ofList [sign.character] :: words) fun tokens =>
      ∃ mark after, tokens = mark :: after ∧ mark.IsSign sign ∧ property after := by
  refine (rest.cons sign.fits_word).mono ?_
  rintro _ ⟨mark, after, rfl, is, _, holds⟩
  exact ⟨mark, after, rfl, is, holds⟩

theorem keyword (keyword : Keyword) (rest : Spell words property) :
    Spell (keyword.word :: words) fun tokens =>
      ∃ word after, tokens = word :: after ∧ word.IsWord keyword ∧ property after := by
  have fits : (Kind.keyword keyword).Fits keyword.word.toList := by
    have word : (Kind.ofWord (String.ofList keyword.word.toList)).Fits keyword.word.toList :=
      .word (by cases keyword <;> decide) (List.all_eq_true.mp (by cases keyword <;> decide))
    rwa [String.ofList_toList, Kind.ofWord, Keyword.ofWord?_word] at word
  refine (rest.cons fits).mono ?_
  rintro _ ⟨word, after, rfl, is, _, holds⟩
  exact ⟨word, after, rfl, is, holds⟩

theorem name {name : String} (free : IsName name) (rest : Spell words property) :
    Spell (name :: words) fun tokens =>
      ∃ word after, tokens = word :: after ∧ word.kind = .identifier ∧ word.lexeme = name ∧
        property after :=
  rest.cons ((isName_iff_fits name).mp free)

theorem enclosed (inside : Spell words property) :
    Spell (enclosed words) fun tokens => ∃ opening inner closing,
      tokens = opening :: inner ++ [closing] ∧ opening.IsSign .leftParen ∧ property inner ∧
        closing.IsSign .rightParen := by
  refine ((inside.append (nil.sign .rightParen)).sign .leftParen).mono ?_
  rintro _ ⟨opening, _, rfl, opens, tokens, _, rfl, holds, closing, _, rfl, closes, rfl⟩
  exact ⟨opening, tokens, closing, rfl, opens, holds, closes⟩

theorem braced {body : Block} (inside : Spell words fun tokens => Block.Derives tokens body) :
    Spell (braced words) fun tokens => Block.DerivesBraced tokens body := by
  refine ((inside.append (nil.sign .rightBrace)).sign .leftBrace).mono ?_
  rintro _ ⟨opening, _, rfl, opens, tokens, _, rfl, holds, closing, _, rfl, closes, rfl⟩
  exact .mk opens holds closes

/-- Items with commas between them are a list if each of them is an item of it. -/
theorem separated {α : Type} {render : α → List String} {one : List Token → α → Prop}
    {many : List Token → List α → Prop}
    (single : ∀ {tokens item}, one tokens item → many tokens [item])
    (longer : ∀ {before item mark after items}, one before item → mark.IsSign .comma →
      many after items → many (before ++ mark :: after) (item :: items))
    {items : List α} (each : ∀ item ∈ items, Spell (render item) (one · item)) :
    Spell (separated (items.map render)) fun tokens =>
      tokens = [] ∧ items = [] ∨ many tokens items := by
  induction items with
  | nil => exact nil.mono fun tokens none => .inl ⟨none, rfl⟩
  | cons item items ih =>
    obtain ⟨here, later⟩ := List.forall_mem_cons.mp each
    cases items with
    | nil => exact here.mono fun tokens holds => .inr (single holds)
    | cons next items =>
      refine (here.append ((ih later).sign .comma)).mono ?_
      rintro _ ⟨before, _, rfl, holds, mark, after, rfl, is, none | list⟩
      · exact absurd none.2 (List.cons_ne_nil _ _)
      · exact .inr (longer holds is list)

theorem parameters {names : List String} (free : ∀ name ∈ names, IsName name) :
    Spell (ScopeScript.enclosed (ScopeScript.separated (names.map fun name => [name])))
      (ParametersDerive · names) := by
  have each : ∀ name ∈ names, Spell [name] fun tokens =>
      ∃ word, tokens = [word] ∧ word.kind = .identifier ∧ word.lexeme = name := by
    intro name member
    refine (nil.name (free name member)).mono ?_
    rintro _ ⟨word, _, rfl, is, same, rfl⟩
    exact ⟨word, rfl, is, same⟩
  have list : Spell (ScopeScript.separated (names.map fun name => [name])) fun tokens =>
      tokens = [] ∧ names = [] ∨ NamesDerive tokens names := by
    refine separated ?_ ?_ each
    · rintro _ _ ⟨word, rfl, is, rfl⟩
      exact .one is
    · rintro _ _ _ _ _ ⟨word, rfl, is, rfl⟩ separates derived
      exact derived.cons is separates
  refine list.enclosed.mono ?_
  rintro _ ⟨opening, tokens, closing, rfl, opens, ⟨rfl, rfl⟩ | derived, closes⟩
  · exact .none opens closes
  · exact .some opens derived closes

/-- The arguments of a call, each a whole expression. -/
theorem arguments {values : List Expr} {render : Expr → List String}
    (each : ∀ value ∈ values, Spell (render value) (Expr.Derives 1 · value)) :
    Spell (ScopeScript.enclosed (ScopeScript.separated (values.map render)))
      (Expr.DeriveArguments · values) := by
  have list : Spell (ScopeScript.separated (values.map render)) fun tokens =>
      tokens = [] ∧ values = [] ∨ Expr.DeriveList tokens values :=
    separated (fun derived => .one derived) (fun first separates more => more.cons first separates)
      each
  refine list.enclosed.mono ?_
  rintro _ ⟨opening, tokens, closing, rfl, opens, ⟨rfl, rfl⟩ | derived, closes⟩
  · exact .none opens closes
  · exact .some opens derived closes

theorem ifThen {head block : List String} {condition : Expr} {consequence : Block}
    (inside : Spell head (Expr.Derives 1 · condition))
    (first : Spell block (Block.Derives · consequence)) :
    Spell ("if" :: ScopeScript.enclosed head ++ ScopeScript.braced block)
      (Expr.DerivesIf · (.ifThen condition consequence)) := by
  refine ((inside.enclosed.keyword .ifWord).append first.braced).mono ?_
  rintro _ ⟨_, block, rfl, ⟨word, _, rfl, is, opening, tokens, closing, rfl, opens, derived, closes⟩,
    braced⟩
  exact .alone (.mk is opens derived closes) braced

theorem ifElse {head block other : List String} {condition : Expr}
    {consequence alternative : Block} (inside : Spell head (Expr.Derives 1 · condition))
    (first : Spell block (Block.Derives · consequence))
    (second : Spell other (Block.Derives · alternative)) :
    Spell ("if" :: ScopeScript.enclosed head ++ ScopeScript.braced block ++
        "else" :: ScopeScript.braced other)
      (Expr.DerivesIf · (.ifElse condition consequence alternative)) := by
  refine (((inside.enclosed.keyword .ifWord).append first.braced).append
    (second.braced.keyword .elseWord)).mono ?_
  rintro _ ⟨_, _, rfl, ⟨_, block, rfl, ⟨word, _, rfl, is, opening, tokens, closing, rfl, opens,
    derived, closes⟩, braced⟩, otherwise, _, rfl, isElse, bracedOther⟩
  exact .withElse (.mk is opens derived closes) braced isElse bracedOther

theorem function {list block : List String} {parameters : List String} {body : Block}
    (names : Spell list (ParametersDerive · parameters))
    (inside : Spell block (Block.Derives · body)) :
    Spell (list ++ ScopeScript.braced block) (Block.DerivesFunction · parameters body) := by
  refine (names.append inside.braced).mono ?_
  rintro _ ⟨before, after, rfl, derived, braced⟩
  exact .mk derived braced

end Spell

/-- The tightest level that an expression is on. -/
def Expr.grade : Expr → Nat
  | .binary op _ _ => op.level
  | _ => Operator.callLevel

theorem Expr.grade_pos (value : Expr) : 1 ≤ value.grade := by
  cases value with
  | binary op left right => exact op.level_pos
  | _ => exact Nat.le_add_left 1 _

theorem Expr.level_le_grade (value : Expr) : value.level ≤ value.grade := by
  cases value with
  | binary op left right => exact Nat.le_refl _
  | _ => exact Nat.le_succ _

/-- What no operator can tear apart can be called. -/
theorem Expr.callLevel_le_grade {value : Expr} (whole : Operator.negationLevel ≤ value.level) :
    Operator.callLevel ≤ value.grade := by
  cases value with
  | binary op left right => exact absurd op.level_lt_negationLevel (Nat.not_lt.mpr whole)
  | _ => exact Nat.le_refl _

/-- Tokens that are an expression of a level. Where it leads a statement they do not begin
with `if`. -/
structure Expr.Leads (leads : Bool) (level : Nat) (tokens : List Token) (value : Expr) : Prop where
  derived : Expr.Derives level tokens value
  begins : leads = true → ∀ first ∈ tokens.head?, ¬ first.IsWord .ifWord

namespace Expr.Leads

variable {leads : Bool} {high low : Nat} {before after : List Token} {mark : Token}
  {left right value : Expr}

theorem looser (known : Leads leads high before value) (le : low ≤ high) :
    Leads leads low before value :=
  ⟨known.derived.looser le, known.begins⟩

theorem of_first (derived : Expr.Derives high (mark :: after) value)
    (notIf : ¬ mark.IsWord .ifWord) : Leads leads high (mark :: after) value :=
  ⟨derived, fun _ first is => by cases Option.mem_some.mp is; exact notIf⟩

/-- What comes behind the left operand does not change how the whole begins. -/
theorem begins_append (known : Leads leads high before left) (lead : leads = true) :
    ∀ first ∈ (before ++ after).head?, ¬ first.IsWord .ifWord := by
  obtain ⟨first, rest, rfl, _⟩ := known.derived.begins
  exact known.begins lead

end Expr.Leads

namespace Spell

variable {words : List String} {value : Expr} {leads : Bool}

theorem group (inside : Spell words (Expr.Leads leads value.grade · value)) :
    Spell (ScopeScript.enclosed words) (Expr.Leads leads Operator.callLevel · value) := by
  refine inside.enclosed.mono ?_
  rintro _ ⟨opening, tokens, closing, rfl, opens, known, closes⟩
  exact .of_first (.group opens (known.derived.looser value.grade_pos) closes) (by simp [opens])

theorem whole (inside : Spell words (Expr.Leads leads value.grade · value)) :
    Spell words (Expr.Derives 1 · value) :=
  inside.mono fun _ known => known.derived.looser value.grade_pos

/-- A guarded expression is on the level of its place. -/
theorem guarded {bound high : Nat} (inside : Spell words (Expr.Leads leads value.grade · value))
    (able : bound ≤ value.level → high ≤ value.grade) (le : high ≤ Operator.callLevel) :
    Spell (ScopeScript.guarded value.level bound words) (Expr.Leads leads high · value) := by
  unfold ScopeScript.guarded
  split
  · exact inside.group.mono fun tokens known => known.looser le
  · exact inside.mono fun tokens known => known.looser (able (Nat.le_of_not_lt ‹_›))

/-- An `if` that leads is enclosed. -/
theorem led (leads : Bool) (inside : Spell words (Expr.DerivesIf · value)) :
    Spell (ScopeScript.led leads words) (Expr.Leads leads Operator.callLevel · value) := by
  cases leads with
  | false => exact inside.mono fun tokens derived => ⟨.branch derived, fun lead => by cases lead⟩
  | true =>
    refine inside.enclosed.mono ?_
    rintro _ ⟨opening, tokens, closing, rfl, opens, derived, closes⟩
    have whole : Expr.Derives Operator.callLevel tokens value := .branch derived
    exact .of_first (.group opens (whole.looser (by decide)) closes) (by simp [opens])

theorem statement (inside : Spell words (Expr.Leads true value.grade · value)) :
    Spell words fun tokens => ∃ ending, Stmt.Derives ending tokens (.expression value) :=
  inside.mono fun _ known =>
    ⟨_, .expression (known.derived.looser value.grade_pos) (known.begins rfl)⟩

/-- The decimal digits of a number are one token, and stand for it. -/
theorem digits (number : Nat) :
    Spell [number.repr] fun tokens => ∃ token, tokens = [token] ∧ token.kind = .integer ∧
      token.lexeme = number.repr ∧ token.decimal = number := by
  have fits : Kind.integer.Fits number.repr.toList := by
    rw [Nat.toList_repr]
    refine .integer (by simp) fun c member => ?_
    exact Nat.isDigit_of_mem_toDigits (by decide) (by decide) member
  refine (nil.cons fits).mono ?_
  rintro _ ⟨token, _, rfl, is, same, rfl⟩
  refine ⟨token, rfl, is, same, ?_⟩
  rw [Token.decimal, same, Nat.toList_repr, Nat.ofDigitChars_toDigits (by decide) (by decide)]

/-- The digits of a number that is not negative are read as this number. -/
theorem integer {value : Int64} (nonneg : 0 ≤ value.toInt) :
    Spell [value.toInt.repr] (Expr.Leads leads Operator.callLevel · (.integer value)) := by
  obtain ⟨number, known⟩ := Int.eq_ofNat_of_zero_le nonneg
  have spelled : value.toInt.repr = number.repr := by
    rw [known]
    rfl
  rw [spelled]
  refine (digits number).mono ?_
  rintro _ ⟨token, rfl, is, _, stands⟩
  exact .of_first (.integer is (by rw [stands, known])) (by simp [is])

/-- The sign of an operator stands between the tokens of its operands. -/
theorem between {left right : List String} {property other : List Token → Prop} (op : Operator)
    (before : Spell left property) (after : Spell right other) :
    Spell (left ++ op.symbol :: right) fun tokens => ∃ first mark second sign,
      tokens = first ++ mark :: second ∧ mark.IsSign sign ∧ Operator.ofSign? sign = some op ∧
        property first ∧ other second := by
  obtain ⟨sign, symbol, is⟩ : ∃ sign, op.symbol = String.ofList [sign.character] ∧
      Operator.ofSign? sign = some op := by
    cases op with
    | add => exact ⟨.plus, rfl, rfl⟩
    | subtract => exact ⟨.minus, rfl, rfl⟩
    | multiply => exact ⟨.star, rfl, rfl⟩
    | divide => exact ⟨.slash, rfl, rfl⟩
    | greater => exact ⟨.greater, rfl, rfl⟩
    | less => exact ⟨.less, rfl, rfl⟩
  rw [symbol]
  refine (before.append (after.sign sign)).mono ?_
  rintro _ ⟨first, _, rfl, holds, mark, second, rfl, marks, also⟩
  exact ⟨first, mark, second, sign, rfl, marks, is, holds, also⟩

theorem operator {op : Operator} {left right : List String} {first second : Expr}
    (before : Spell left (Expr.Leads leads op.level · first))
    (after : Spell right (Expr.Leads false (op.level + 1) · second)) :
    Spell (left ++ op.symbol :: right)
      (Expr.Leads leads op.level · (.binary op first second)) := by
  refine (before.between op after).mono ?_
  rintro _ ⟨tokens, mark, more, sign, rfl, marks, is, known, other⟩
  exact ⟨.binary known.derived marks is other.derived, known.begins_append⟩

theorem call {function list : List String} {callee : Expr} {arguments : List Expr}
    (before : Spell function (Expr.Leads leads Operator.callLevel · callee))
    (after : Spell list (Expr.DeriveArguments · arguments)) :
    Spell (function ++ list) (Expr.Leads leads Operator.callLevel · (.call callee arguments)) := by
  refine (before.append after).mono ?_
  rintro _ ⟨tokens, more, rfl, known, derived⟩
  exact ⟨.call known.derived derived, known.begins_append⟩

end Spell

theorem Expr.argumentWords_eq (values : List Expr) :
    Expr.argumentWords values = values.map (Expr.words false) := by
  induction values with
  | nil => rfl
  | cons value more ih => rw [argumentWords, ih, List.map_cons]

mutual

/-- The words of an expression are read as this expression. -/
theorem Expr.spell : ∀ (leads : Bool) (value : Expr), value.WellFormed →
    Spell (value.words leads) (Expr.Leads leads value.grade · value)
  | leads, .name name, sound => by
    refine (Spell.nil.name sound).mono ?_
    rintro _ ⟨word, _, rfl, is, rfl, rfl⟩
    exact .of_first (.name is) (by simp [is])
  | leads, .integer value, sound => .integer sound
  | leads, .boolean true, _ => by
    refine (Spell.nil.keyword .trueWord).mono ?_
    rintro _ ⟨word, _, rfl, is, rfl⟩
    exact .of_first (.truth is) (by simp [is])
  | leads, .boolean false, _ => by
    refine (Spell.nil.keyword .falseWord).mono ?_
    rintro _ ⟨word, _, rfl, is, rfl⟩
    exact .of_first (.falsity is) (by simp [is])
  | leads, .binary op left right, sound => by
    have below := op.level_lt_negationLevel
    refine .operator ((Expr.spell leads left sound.1).guarded ?_ ?_)
      ((Expr.spell false right sound.2).guarded ?_ ?_)
    · exact fun bound => bound.trans left.level_le_grade
    · exact below.le.trans (Nat.le_succ _)
    · exact fun bound => bound.trans right.level_le_grade
    · exact below.trans (Nat.lt_succ_self _)
  | leads, .ifThen condition consequence, sound =>
    (Spell.ifThen (Expr.spell false condition sound.1).whole
      (Stmt.spell_all consequence sound.2)).led leads
  | leads, .ifElse condition consequence alternative, sound =>
    (Spell.ifElse (Expr.spell false condition sound.1).whole
      (Stmt.spell_all consequence sound.2.1) (Stmt.spell_all alternative sound.2.2)).led leads
  | leads, .function parameters body, sound => by
    refine ((Spell.function (.parameters sound.1) (Stmt.spell_all body sound.2)).keyword
      .functionWord).mono ?_
    rintro _ ⟨word, tokens, rfl, is, derived⟩
    exact .of_first (.function is derived) (by simp [is])
  | leads, .call callee arguments, sound => by
    have list : Spell (enclosed (separated (Expr.argumentWords arguments)))
        (Expr.DeriveArguments · arguments) := by
      rw [Expr.argumentWords_eq]
      exact .arguments (Expr.spell_each arguments sound.2)
    have function := (Expr.spell leads callee sound.1).guarded Expr.callLevel_le_grade (Nat.le_refl _)
    exact function.call list

theorem Expr.spell_each : ∀ values : List Expr, Expr.AllWellFormed values →
    ∀ value ∈ values, Spell (value.words false) (Expr.Derives 1 · value)
  | [], _ => List.forall_mem_nil _
  | value :: more, sound =>
    List.forall_mem_cons.mpr ⟨(Expr.spell false value sound.1).whole, Expr.spell_each more sound.2⟩

theorem Stmt.spell : ∀ stmt : Stmt, stmt.WellFormed →
    Spell stmt.words fun tokens => ∃ ending, Stmt.Derives ending tokens stmt
  | .var name value, sound => by
    have inside := (Expr.spell false value sound.2).whole
    refine (((inside.sign .equal).name sound.1).keyword .varWord).mono ?_
    rintro _ ⟨word, _, rfl, is, called, _, rfl, isName, rfl, mark, tokens, rfl, equal, derived⟩
    exact ⟨_, .var is isName equal derived⟩
  | .function name parameters body, sound => by
    have inside := Spell.function (.parameters sound.2.1) (Stmt.spell_all body sound.2.2)
    refine ((inside.name sound.1).keyword .functionWord).mono ?_
    rintro _ ⟨word, _, rfl, is, called, tokens, rfl, isName, rfl, derived⟩
    exact ⟨_, .function is isName derived⟩
  | .returns value, sound => by
    refine ((Expr.spell false value sound).whole.keyword .returnWord).mono ?_
    rintro _ ⟨word, tokens, rfl, is, derived⟩
    exact ⟨_, .returns is derived⟩
  | .exits code, sound => by
    refine ((Expr.spell false code sound).whole.keyword .exitWord).mono ?_
    rintro _ ⟨word, tokens, rfl, is, derived⟩
    exact ⟨_, .exits is derived⟩
  | .expression (.ifThen condition consequence), sound =>
    (Spell.ifThen (Expr.spell false condition sound.1).whole
      (Stmt.spell_all consequence sound.2)).mono fun _ derived => ⟨_, .branch derived⟩
  | .expression (.ifElse condition consequence alternative), sound =>
    (Spell.ifElse (Expr.spell false condition sound.1).whole
      (Stmt.spell_all consequence sound.2.1)
      (Stmt.spell_all alternative sound.2.2)).mono fun _ derived => ⟨_, .branch derived⟩
  -- Every other expression leads its statement, so an `if` at its left end is enclosed.
  | .expression (.name name), sound => (Expr.spell true (.name name) sound).statement
  | .expression (.integer value), sound => (Expr.spell true (.integer value) sound).statement
  | .expression (.boolean value), sound => (Expr.spell true (.boolean value) sound).statement
  | .expression (.binary op left right), sound =>
    (Expr.spell true (.binary op left right) sound).statement
  | .expression (.function parameters body), sound =>
    (Expr.spell true (.function parameters body) sound).statement
  | .expression (.call callee arguments), sound =>
    (Expr.spell true (.call callee arguments) sound).statement

theorem Stmt.spell_all : ∀ body : List Stmt, Stmt.AllWellFormed body →
    Spell (Stmt.allWords body) (Block.Derives · body)
  | [], _ => Spell.nil.mono fun tokens none => by rw [none]; exact .nil
  | stmt :: more, sound => by
    refine ((Stmt.spell stmt sound.1).append ((Stmt.spell_all more sound.2).sign .semicolon)).mono ?_
    rintro _ ⟨tokens, _, rfl, ⟨ending, derived⟩, mark, rest, rfl, is, later⟩
    exact .ended derived is later

end

/-- A text with the words that are spelled has tokens with the property, and its end. -/
theorem Spell.scan {words : List String} {property : List Token → Prop} {text : String}
    (spell : Spell words property)
    (same : (scan text).map Token.word = (ScopeScript.scan (" ".intercalate words)).map Token.word) :
    ∃ tokens last, ScopeScript.scan text = tokens ++ [last] ∧ last.kind = .endOfInput ∧
      property tokens := by
  obtain ⟨spelled, rfl, fits, holds⟩ := spell
  obtain ⟨_, ended, scanned, known, atEnd⟩ := scan_words fits
  rw [scanned, List.map_append, known] at same
  obtain ⟨tokens, behind, split, words, ends⟩ := List.map_eq_append_iff.mp same
  obtain ⟨last, none, rfl, is, nothing⟩ := List.map_eq_cons_iff.mp ends
  cases List.map_eq_nil_iff.mp nothing
  exact ⟨tokens, last, split, (congrArg Prod.fst is).trans atEnd, holds tokens words⟩

/-- A text with the words of a program is read as this program. -/
theorem parse_of_spell {words : List String} {program : Block} {text : String}
    (spell : Spell words (Block.Derives · program))
    (same : (scan text).map Token.word = (scan (" ".intercalate words)).map Token.word) :
    parse text = .ok program := by
  obtain ⟨tokens, last, scanned, atEnd, derived⟩ := spell.scan same
  exact (parse_eq_ok_iff text program).mpr ⟨tokens, last, scanned, atEnd, derived⟩

/-- A program that can be written at all is what its source is read as. -/
theorem parse_source {program : Block} (sound : program.WellFormed) :
    parse program.source = .ok program :=
  parse_of_spell (Stmt.spell_all program sound) rfl

/-- The programs that texts are read as, even those that lack what was wrong in a text, are
well-formed, and every well-formed program is read from its source. -/
theorem wellFormed_of_read_and_parse_source :
    (∀ text, (read text).program.WellFormed) ∧
      (∀ text program, parse text = .ok program → program.WellFormed) ∧
      ∀ program : Block, program.WellFormed → parse program.source = .ok program := by
  refine ⟨wellFormed_program, fun text program parsed => ?_, fun program => parse_source⟩
  have kept := ((parse_eq_ok_iff_read text program).mp parsed).2
  exact kept ▸ wellFormed_program text

/-- A leading `if`, a sum that is multiplied and a product in a right operand. -/
theorem parse_source_of_enclosed_operands :
    let program : Block := [.expression (.binary .multiply
      (.binary .add (.ifThen (.name "a") []) (.integer 1))
      (.binary .multiply (.integer 2) (.name "b")))]
    program.WellFormed ∧ parse program.source = .ok program := by
  intro program
  have sound : program.WellFormed := by decide
  exact ⟨sound, wellFormed_of_read_and_parse_source.2.2 program sound⟩

example : Block.source [.expression (.binary .multiply
    (.binary .add (.ifThen (.name "a") []) (.integer 1))
    (.binary .multiply (.integer 2) (.name "b")))] =
      "( ( if ( a ) \x7b \x7d ) + 1 ) * ( 2 * b ) ;" := by decide

end ScopeScript
