import ScopeScript.Proofs.Grammar.Gathering

namespace ScopeScript.Reader

/-- Inside a new block of the owner. -/
def enter (reader : Reader) (owner : BlockOwner) : Reader :=
  { reader with opened := ⟨owner, reader.kept⟩ :: reader.opened, kept := [], expects := .statement }

/-- Behind the block of the owner. -/
def complete (reader : Reader) (body : Block) : BlockOwner → Reader
  | .consequence condition site => reader.await (.elseWord condition body site)
  | .alternative condition consequence site =>
    reader.completeIf (.ifElse condition consequence body) site
  | .body parameters site => reader.completeFunction parameters body site

/-- Behind statements that were read one after the other. -/
def keepAll (reader : Reader) (body : Block) : Reader :=
  { reader with kept := body.reverse ++ reader.kept, expects := .statement }

/-- A block ends as its owner goes on, with the statements that were kept inside. -/
theorem close_eq (reader : Reader) (block : OpenBlock) (outer : List OpenBlock) :
    reader.close block outer =
      ({ reader with opened := outer, kept := block.around } : Reader).complete
        reader.kept.reverse block.owner := by
  obtain ⟨owner, around⟩ := block
  cases owner <;> rfl

theorem close_enter (reader : Reader) (owner : BlockOwner) (body : Block) :
    ((reader.enter owner).keepAll body).close ⟨owner, reader.kept⟩ reader.opened =
      reader.complete body owner := by
  rw [close_eq]
  simp only [keepAll, enter, List.append_nil, List.reverse_reverse]
  cases owner with
  | consequence condition site => rfl
  | alternative condition consequence site => cases site <;> rfl
  | body parameters site => cases site <;> rfl

theorem keepAll_keep (reader : Reader) (stmt : Stmt) (body : Block) :
    (reader.keep stmt).keepAll body = reader.keepAll (stmt :: body) := by
  simp only [keepAll, keep, List.reverse_cons, List.append_assoc, List.singleton_append]

theorem feed_of_ready {reader : Reader} (ready : reader.expects = .statement) (token : Token) :
    reader.feed token = reader.feedStatement token := by
  rw [feed, ready]

/-- A semicolon in the place of a statement is passed over. -/
theorem feed_semicolon {reader : Reader} {token : Token} (ready : reader.expects = .statement)
    (is : token.IsSign .semicolon) : reader.feed token = reader := by
  rw [feed_of_ready ready]
  simp only [feedStatement, is, await, ← ready]

/-- Where an operand is read, nothing but its hole is looked at. -/
theorem feedOperand_await (reader : Reader) (expects : Expectation) (hole : Hole) (token : Token) :
    (reader.await expects).feedOperand hole token = reader.feedOperand hole token := by
  unfold feedOperand
  split
  · split <;> rfl
  all_goals rfl

/-- What puts an expression in its place sets anew what is expected. -/
theorem settle_await (reader : Reader) (expects : Expectation) (token : Token) (value : Expr)
    (hole : Hole) :
    (reader.await expects).settle token value hole = reader.settle token value hole := by
  induction hole generalizing value with
  | right op left outer ih => exact ih _
  | negation outer ih => exact ih _
  | _ => rfl

theorem feedOperator_await (reader : Reader) (expects : Expectation) (value : Expr) (hole : Hole)
    (token : Token) :
    (reader.await expects).feedOperator value hole token =
      reader.feedOperator value hole token := by
  unfold feedOperator
  split
  · rfl
  · split
    · rfl
    · exact settle_await ..
  · exact settle_await ..

@[simp] theorem feed_operand (reader : Reader) (hole : Hole) (token : Token) :
    (reader.await (.operand hole)).feed token = reader.feedOperand hole token :=
  feedOperand_await ..

@[simp] theorem feed_operator (reader : Reader) (value : Expr) (hole : Hole) (token : Token) :
    (reader.await (.operator value hole)).feed token = reader.feedOperator value hole token :=
  feedOperator_await ..

theorem feedOperator_of_leftParen {reader : Reader} {value : Expr} {hole : Hole} {token : Token}
    (opens : token.IsSign .leftParen) :
    reader.feedOperator value hole token = reader.await (.firstArgument value hole) := by
  simp only [feedOperator, opens]

theorem feedOperator_of_ofSign? {reader : Reader} {value : Expr} {hole : Hole} {token : Token}
    {sign : Punctuation} {op : Operator} (is : token.IsSign sign)
    (known : Operator.ofSign? sign = some op) :
    reader.feedOperator value hole token = reader.await (.operand (hole.behind op value)) := by
  cases sign <;> simp_all [feedOperator, Operator.ofSign?]

/-- What no expression goes on with ends the one that was read. -/
theorem feedOperator_of_goesOn {reader : Reader} {value : Expr} {hole : Hole} {token : Token}
    (stops : token.kind.goesOn = false) :
    reader.feedOperator value hole token = reader.settle token value hole := by
  unfold feedOperator
  split
  · rename_i opens
    rw [opens] at stops
    exact absurd stops (by decide)
  · rename_i sign notOpening is
    rw [is, Kind.goesOn.eq_2 sign notOpening] at stops
    have unknown := Option.isNone_iff_eq_none.mp (Option.isSome_eq_false_iff.mp stops)
    rw [unknown]
  · rfl

/-- A digit run is read as the integer that it stands for, if there is one of 64 bits. -/
theorem integer?_eq_some_iff {digits : Token} {value : Int64} :
    integer? digits.lexeme = some value ↔ value.toInt = (digits.decimal : Int) := by
  unfold integer? Token.decimal
  dsimp only
  constructor
  · intro found
    split at found
    · rename_i small
      cases Option.some.inj found
      exact Int64.toInt_ofNat_of_lt small
    · exact absurd found (by simp)
  · intro same
    have bound := value.toInt_lt
    have small : Nat.ofDigitChars 10 digits.lexeme.toList 0 < 0x8000000000000000 := by omega
    have known : Int64.ofNat (Nat.ofDigitChars 10 digits.lexeme.toList 0) = value := by
      apply Int64.toInt_inj.mp
      rw [same, Int64.toInt_ofNat_of_lt small]
    simp only [if_pos small, known]

/-- The operators that are pending are put together before such a token is read. -/
theorem feed_of_gathers {level : Nat} {value whole : Expr} {hole outer : Hole} {token : Token}
    (gathers : Gathers level value hole whole outer) (stops : token.kind.goesOn = false)
    (reader : Reader) :
    (reader.await (.operator value hole)).feed token = reader.settle token whole outer := by
  rw [feed_operator, feedOperator_of_goesOn stops, gathers.settle]

end ScopeScript.Reader
