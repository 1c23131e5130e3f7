import ScopeScript.Proofs.Grammar.Step
import ScopeScript.Proofs.Reading.Errors

namespace ScopeScript

/-- No statement goes on over a semicolon or over the end of the text. -/
def Kind.breaks : Kind → Bool
  | .endOfInput => true
  | .punctuation .semicolon => true
  | _ => false

theorem Kind.breaks_cases {kind : Kind} (breaks : kind.breaks = true) :
    kind = .endOfInput ∨ kind = .punctuation .semicolon := by
  unfold Kind.breaks at breaks
  split at breaks
  · exact .inl rfl
  · exact .inr rfl
  · exact absurd breaks Bool.false_ne_true

namespace Reader

/-- What a way of reading makes of the statement that is not finished. Every break finds it
over, or every break is blamed; then the break is read where a statement could begin. -/
inductive Broken (reader : Reader) (read : Token → Reader) : Prop
  | settled (done : Reader) : done.opened = reader.opened → done.errors = reader.errors →
      (∀ token : Token, token.kind.breaks = true → read token = done.feedStatement token) →
      Broken reader read
  | blamed : (∀ token : Token, token.kind.breaks = true →
      ∃ fault, read token = (reader.blame fault token).feedStatement token) → Broken reader read

variable (reader : Reader)

theorem broken_feedStatement : reader.Broken reader.feedStatement :=
  .settled reader rfl rfl fun _ _ => rfl

theorem broken_keep (stmt : Stmt) : reader.Broken (reader.keep stmt).feedStatement :=
  .settled (reader.keep stmt) rfl rfl fun _ _ => rfl

theorem broken_feedOperand (hole : Hole) : reader.Broken (reader.feedOperand hole) := by
  refine .blamed fun token breaks => ⟨.noOperand token.kind, ?_⟩
  rcases Kind.breaks_cases breaks with is | is
  · simp only [feedOperand, feedStatement, is]
  · simp only [feedOperand, feedStatement, is]
    rfl

theorem broken_expect {kind : Kind} (other : kind.breaks = false) (next : Token → Expectation) :
    reader.Broken fun token => reader.expect kind (next token) token := by
  refine .blamed fun token breaks => ⟨.unexpected kind token.kind, ?_⟩
  have differs : token.kind ≠ kind := by
    rintro rfl
    rw [breaks] at other
    exact Bool.false_ne_true other.symm
  rw [expect, if_neg differs, refuse]

theorem broken_expectBlock (owner : BlockOwner) : reader.Broken (reader.expectBlock owner) := by
  refine .blamed fun token breaks => ⟨.unexpected (.punctuation .leftBrace) token.kind, ?_⟩
  have differs : token.kind ≠ .punctuation .leftBrace := by
    intro is
    rw [is] at breaks
    exact Bool.false_ne_true breaks
  rw [expectBlock, if_neg differs, refuse]

/-- A way of reading that differs from another on no break. -/
theorem Broken.congr {reader : Reader} {read other : Token → Reader} (broken : reader.Broken other)
    (same : ∀ token : Token, token.kind.breaks = true → read token = other token) :
    reader.Broken read := by
  cases broken with
  | settled done opened errors reads =>
    exact .settled done opened errors fun token breaks => (same token breaks).trans (reads token breaks)
  | blamed reads =>
    refine .blamed fun token breaks => ?_
    rw [same token breaks]
    exact reads token breaks

/-- One kind of token is treated apart, but no break is of that kind. -/
theorem Broken.ite {reader : Reader} {read other : Token → Reader} {kind : Kind}
    (broken : reader.Broken other) (apart : kind.breaks = false) :
    reader.Broken fun token => if token.kind = kind then read token else other token := by
  refine broken.congr fun token breaks => if_neg ?_
  rintro rfl
  rw [breaks] at apart
  exact Bool.false_ne_true apart.symm

theorem broken_settle (value : Expr) (hole : Hole) :
    reader.Broken fun token => reader.settle token value hole := by
  induction hole generalizing value with
  | right op left outer ih => exact ih _
  | negation outer ih => exact ih _
  | argument callee earlier outer => exact (broken_expect reader rfl _).ite rfl
  | group outer => exact broken_expect reader rfl _
  | statementCondition => exact broken_expect reader rfl _
  | condition outer => exact broken_expect reader rfl _
  | statement => exact broken_keep reader _
  | initializer name => exact broken_keep reader _
  | result => exact broken_keep reader _
  | exitCode => exact broken_keep reader _

theorem broken_feedOperator (value : Expr) (hole : Hole) :
    reader.Broken (reader.feedOperator value hole) := by
  refine (broken_settle reader value hole).congr fun token breaks => feedOperator_of_goesOn ?_
  rcases Kind.breaks_cases breaks with is | is <;> rw [is] <;> rfl

/-- Nothing of a program reaches over a break. -/
theorem broken_feed : reader.Broken reader.feed := by
  unfold feed
  cases reader.expects with
  | statement => exact broken_feedStatement reader
  | operand hole => exact broken_feedOperand reader hole
  | operator value hole => exact broken_feedOperator reader value hole
  | functionName => exact (broken_expect reader rfl _).ite rfl
  | firstArgument callee hole => exact (broken_feedOperand reader _).ite rfl
  | firstParameter site => exact (broken_expect reader rfl _).ite rfl
  | parametersEnd earlier site => exact (broken_expect reader rfl _).ite rfl
  | elseWord condition consequence site =>
    cases site with
    | statement => exact (broken_keep reader _).ite rfl
    | operand hole => exact (broken_feedOperator reader _ hole).ite rfl
  | consequenceOpen condition site => exact broken_expectBlock reader _
  | alternativeOpen condition consequence site => exact broken_expectBlock reader _
  | bodyOpen earlier site => exact broken_expectBlock reader _
  | variableName => exact broken_expect reader rfl _
  | equalSign name => exact broken_expect reader rfl _
  | conditionOpen site => exact broken_expect reader rfl _
  | parametersOpen site => exact broken_expect reader rfl _
  | nextParameter earlier site => exact broken_expect reader rfl _

variable {reader} {mark last : Token}

/-- Behind a semicolon a statement may begin, and the open blocks are those before it. -/
theorem feed_of_semicolon (is : mark.IsSign .semicolon) :
    (reader.feed mark).opened = reader.opened ∧ (reader.feed mark).expects = .statement := by
  have breaks : mark.kind.breaks = true := by rw [is]; rfl
  cases broken_feed reader with
  | settled done opened _ reads =>
    rw [reads mark breaks]
    simp only [feedStatement, is, await, opened, and_self]
  | blamed reads =>
    obtain ⟨fault, read⟩ := reads mark breaks
    rw [read]
    simp only [feedStatement, is, await, blame, and_self]

/-- At the end of the text every block is given up. -/
theorem opened_of_endOfInput (atEnd : last.kind = .endOfInput) : (reader.feed last).opened = [] := by
  have breaks : last.kind.breaks = true := by rw [atEnd]; rfl
  cases broken_feed reader with
  | settled done _ _ reads =>
    rw [reads last breaks]
    simp only [feedStatement, atEnd, finish]
  | blamed reads =>
    obtain ⟨fault, read⟩ := reads last breaks
    rw [read]
    simp only [feedStatement, atEnd, finish]

/-- A text that may end may as well go on with a semicolon: the last statement is over,
and no block is open. -/
theorem feed_semicolon_of_clean (is : mark.IsSign .semicolon) (atEnd : last.kind = .endOfInput)
    (clean : (reader.feed last).errors = []) :
    reader.opened = [] ∧ (reader.feed mark).errors = [] ∧
      (reader.feed mark).kept = (reader.feed last).kept := by
  have markBreaks : mark.kind.breaks = true := by rw [is]; rfl
  have lastBreaks : last.kind.breaks = true := by rw [atEnd]; rfl
  cases broken_feed reader with
  | settled done opened _ reads =>
    rw [reads mark markBreaks]
    rw [reads last lastBreaks] at clean ⊢
    simp only [feedStatement, is, atEnd, finish, await] at clean ⊢
    obtain ⟨missing, none⟩ := List.append_eq_nil_iff.mp clean
    have outside : done.opened = [] :=
      List.length_eq_zero_iff.mp (List.replicate_eq_nil_iff _ |>.mp missing)
    rw [← opened, outside]
    exact ⟨rfl, none, rfl⟩
  | blamed reads =>
    obtain ⟨fault, read⟩ := reads last lastBreaks
    have kept := suffix_feedStatement (reader.blame fault last) last
    rw [← read, clean, List.suffix_nil] at kept
    exact absurd kept (List.cons_ne_nil _ _)

end Reader

end ScopeScript
