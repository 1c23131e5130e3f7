import Mathlib.Logic.Relation
import ScopeScript.Proofs.Grammar.Step

namespace ScopeScript

/-- The fault is one that the token has: it names its kind or its lexeme, and what was
expected is something else. -/
inductive Fault.Concerns (token : Token) : Fault → Prop
  | unexpected {expected : Kind} :
      expected ≠ token.kind → Concerns token (.unexpected expected token.kind)
  | noOperand : Concerns token (.noOperand token.kind)
  | illegal : token.kind = .illegal → Concerns token (.illegal token.lexeme)
  | tooLarge : token.kind = .integer → Concerns token (.tooLarge token.lexeme)

/-- The token stands where one of another kind had to stand. -/
def Fault.Refuses : Fault → Prop
  | .unexpected _ _ => True
  | _ => False

/-- The kind of the token that has the fault. -/
def Fault.found : Fault → Kind
  | .unexpected _ found => found
  | .noOperand found => found
  | .illegal _ => .illegal
  | .tooLarge _ => .integer

theorem Fault.Concerns.found_eq {fault : Fault} {token : Token} (concerns : fault.Concerns token) :
    fault.found = token.kind := by
  cases concerns with
  | unexpected _ => rfl
  | noOperand => rfl
  | illegal is => exact is.symm
  | tooLarge is => exact is.symm

/-- The error is about the token where it stands. -/
def SyntaxError.Blames (error : SyntaxError) (token : Token) : Prop :=
  error.position = token.position ∧ error.fault.Concerns token

namespace Reader

/-- All that a reader can do with a token, one action at a time. -/
inductive Acts (token : Token) : Reader → Reader → Prop
  | await (reader : Reader) (expects : Expectation) : Acts token reader (reader.await expects)
  | keep (reader : Reader) (stmt : Stmt) : Acts token reader (reader.keep stmt)
  | blame (reader : Reader) {fault : Fault} :
      fault.Concerns token → Acts token reader (reader.blame fault token)
  | enter (reader : Reader) (owner : BlockOwner) :
      token.IsSign .leftBrace → Acts token reader (reader.enter owner)
  | close {reader : Reader} {block : OpenBlock} {outer : List OpenBlock} :
      token.IsSign .rightBrace → reader.opened = block :: outer →
      Acts token reader (reader.close block outer)
  | finish (reader : Reader) : token.kind = .endOfInput → Acts token reader (reader.finish token)

/-- A token is read by a few actions. -/
abbrev Reads (token : Token) : Reader → Reader → Prop := Relation.ReflTransGen (Acts token)

/-- What a token makes of a reader where a statement or an operand may begin. One that begins
none is dropped, and at the end of the text what is open is given up. -/
inductive Begins (token : Token) (reader : Reader) : Reader → Prop
  | await (expects : Expectation) : Begins token reader (reader.await expects)
  | close {block : OpenBlock} {outer : List OpenBlock} :
      token.IsSign .rightBrace → reader.opened = block :: outer →
      Begins token reader (reader.close block outer)
  | drop {fault : Fault} :
      fault.Concerns token → ¬ fault.Refuses → Begins token reader (reader.blame fault token)
  | finish : token.kind = .endOfInput → Begins token reader (reader.finish token)
  | lack : token.kind = .endOfInput →
      Begins token reader ((reader.blame (.noOperand token.kind) token).finish token)

/-- What a token makes of any reader. It goes on with what was read, or a statement is over
and the token begins the next one, or it is refused and begins the next one. Where a statement
may begin no token is refused. -/
inductive Takes (token : Token) (reader : Reader) : Reader → Prop
  | begins {after : Reader} : Begins token reader after → Takes token reader after
  | enter (owner : BlockOwner) : token.IsSign .leftBrace → Takes token reader (reader.enter owner)
  | keep (stmt : Stmt) {after : Reader} :
      Begins token (reader.keep stmt) after → Takes token reader after
  | refuse {expected : Kind} {after : Reader} :
      reader.expects ≠ .statement → expected ≠ token.kind →
      Begins token (reader.blame (.unexpected expected token.kind) token) after →
      Takes token reader after

variable {reader : Reader} {token : Token}

theorem begins_feedOperand (reader : Reader) (hole : Hole) (token : Token) :
    Begins token reader (reader.feedOperand hole token) := by
  unfold feedOperand
  split
  case h_1 is =>
    split
    · exact .await _
    · exact .drop (.tooLarge is) id
  case h_9 is => exact .drop (.illegal is) id
  case h_10 is => exact .lack is
  case h_11 => exact .drop .noOperand id
  all_goals exact .await _

theorem begins_feedStatement (reader : Reader) (token : Token) :
    Begins token reader (reader.feedStatement token) := by
  unfold feedStatement
  split
  case h_7 is =>
    split
    · exact .drop .noOperand id
    · rename_i block outer known
      exact .close is known
  case h_8 is => exact .finish is
  case h_9 => exact begins_feedOperand ..
  all_goals exact .await _

/-- One kind of token may be treated apart. -/
theorem Takes.ite {kind : Kind} {apart after : Reader} (this : Takes token reader apart)
    (other : Takes token reader after) :
    Takes token reader (if token.kind = kind then apart else after) := by
  split
  · exact this
  · exact other

section Pending

variable (pending : reader.expects ≠ .statement)

include pending

theorem takes_expect (kind : Kind) (next : Expectation) (token : Token) :
    Takes token reader (reader.expect kind next token) := by
  unfold expect
  split
  · exact .begins (.await next)
  · rename_i other
    exact .refuse pending (Ne.symm other) (begins_feedStatement _ token)

theorem takes_expectBlock (owner : BlockOwner) (token : Token) :
    Takes token reader (reader.expectBlock owner token) := by
  unfold expectBlock
  split
  · exact .enter owner ‹_›
  · rename_i other
    exact .refuse pending (Ne.symm other) (begins_feedStatement _ token)

theorem takes_settle (token : Token) (value : Expr) (hole : Hole) :
    Takes token reader (reader.settle token value hole) := by
  induction hole generalizing value with
  | right op left outer ih => exact ih _
  | negation outer ih => exact ih _
  | argument callee earlier outer => exact .ite (.begins (.await _)) (takes_expect pending ..)
  | group outer => exact takes_expect pending ..
  | statementCondition => exact takes_expect pending ..
  | condition outer => exact takes_expect pending ..
  | statement => exact .keep _ (begins_feedStatement ..)
  | initializer name => exact .keep _ (begins_feedStatement ..)
  | result => exact .keep _ (begins_feedStatement ..)
  | exitCode => exact .keep _ (begins_feedStatement ..)

theorem takes_feedOperator (value : Expr) (hole : Hole) (token : Token) :
    Takes token reader (reader.feedOperator value hole token) := by
  unfold feedOperator
  split
  · exact .begins (.await _)
  · split
    · exact .begins (.await _)
    · exact takes_settle pending ..
  · exact takes_settle pending ..

end Pending

/-- Whatever a reader expects, this is all that a token can make of it. -/
theorem takes_feed (reader : Reader) (token : Token) : Takes token reader (reader.feed token) := by
  rcases Classical.em (reader.expects = .statement) with ready | pending
  · simp only [feed, ready]
    exact .begins (begins_feedStatement reader token)
  unfold feed
  cases awaited : reader.expects with
  | statement => exact absurd awaited pending
  | operand hole => exact .begins (begins_feedOperand ..)
  | operator value hole => exact takes_feedOperator pending ..
  | functionName => exact .ite (.begins (.await _)) (takes_expect pending ..)
  | firstArgument callee hole => exact .ite (.begins (.await _)) (.begins (begins_feedOperand ..))
  | firstParameter site => exact .ite (.begins (.await _)) (takes_expect pending ..)
  | parametersEnd earlier site => exact .ite (.begins (.await _)) (takes_expect pending ..)
  | elseWord condition consequence site =>
    cases site with
    | statement => exact .ite (.begins (.await _)) (.keep _ (begins_feedStatement ..))
    | operand hole => exact .ite (.begins (.await _)) (takes_feedOperator pending ..)
  | consequenceOpen condition site => exact takes_expectBlock pending ..
  | alternativeOpen condition consequence site => exact takes_expectBlock pending ..
  | bodyOpen earlier site => exact takes_expectBlock pending ..
  | variableName => exact takes_expect pending ..
  | equalSign name => exact takes_expect pending ..
  | conditionOpen site => exact takes_expect pending ..
  | parametersOpen site => exact takes_expect pending ..
  | nextParameter earlier site => exact takes_expect pending ..

/-- A token where a statement or an operand may begin is read by a few actions. -/
theorem Begins.reads {after : Reader} (begins : Begins token reader after) :
    Reads token reader after := by
  cases begins with
  | await expects => exact .single (.await reader expects)
  | close is known => exact .single (.close is known)
  | drop concerns _ => exact .single (.blame reader concerns)
  | finish is => exact .single (.finish reader is)
  | lack is => exact .tail (.single (.blame reader .noOperand)) (.finish _ is)

theorem Takes.reads {after : Reader} (takes : Takes token reader after) :
    Reads token reader after := by
  cases takes with
  | begins begun => exact begun.reads
  | enter owner is => exact .single (.enter reader owner is)
  | keep stmt begun => exact .head (.keep reader stmt) begun.reads
  | refuse _ other begun => exact .head (.blame reader (.unexpected other)) begun.reads

theorem reads_feed (reader : Reader) (token : Token) : Reads token reader (reader.feed token) :=
  (takes_feed reader token).reads

/-- Only a left brace opens a block. -/
theorem Reads.opened_eq_nil {after : Reader} (reads : Reads token reader after)
    (other : ¬ token.IsSign .leftBrace) (outside : reader.opened = []) : after.opened = [] := by
  induction reads with
  | refl => exact outside
  | tail _ acts ih =>
    cases acts with
    | await _ => exact ih
    | keep _ => exact ih
    | blame _ => exact ih
    | enter _ is => exact absurd is other
    | close _ known =>
      rw [ih] at known
      exact absurd known.symm (List.cons_ne_nil _ _)
    | finish _ => rfl

end Reader

end ScopeScript
