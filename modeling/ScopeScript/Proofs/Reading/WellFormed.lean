import ScopeScript.Proofs.Grammar.Recognition
import ScopeScript.Proofs.Program.WellFormed
import ScopeScript.Proofs.Token.Pieces

namespace ScopeScript

/-- What was read before a hole is well-formed. -/
def Hole.WellFormed : Hole → Prop
  | .statement | .result | .exitCode | .statementCondition => True
  | .initializer name => IsName name
  | .condition outer | .group outer | .negation outer => outer.WellFormed
  | .right _ left outer => left.WellFormed ∧ outer.WellFormed
  | .argument callee earlier outer =>
    callee.WellFormed ∧ Expr.AllWellFormed earlier ∧ outer.WellFormed

def IfSite.WellFormed : IfSite → Prop
  | .statement => True
  | .operand outer => outer.WellFormed

def FunctionSite.WellFormed : FunctionSite → Prop
  | .statement name => IsName name
  | .operand outer => outer.WellFormed

def BlockOwner.WellFormed : BlockOwner → Prop
  | .consequence condition site => condition.WellFormed ∧ site.WellFormed
  | .alternative condition before site =>
    condition.WellFormed ∧ Stmt.AllWellFormed before ∧ site.WellFormed
  | .body parameters site => (∀ name ∈ parameters, IsName name) ∧ site.WellFormed

def Expectation.WellFormed : Expectation → Prop
  | .statement | .variableName | .functionName => True
  | .equalSign name => IsName name
  | .operand hole => hole.WellFormed
  | .operator left hole | .firstArgument left hole => left.WellFormed ∧ hole.WellFormed
  | .conditionOpen site => site.WellFormed
  | .consequenceOpen condition site => condition.WellFormed ∧ site.WellFormed
  | .elseWord condition consequence site | .alternativeOpen condition consequence site =>
    condition.WellFormed ∧ Stmt.AllWellFormed consequence ∧ site.WellFormed
  | .parametersOpen site | .firstParameter site => site.WellFormed
  | .nextParameter earlier site | .parametersEnd earlier site | .bodyOpen earlier site =>
    (∀ name ∈ earlier, IsName name) ∧ site.WellFormed

attribute [simp] Hole.WellFormed IfSite.WellFormed FunctionSite.WellFormed BlockOwner.WellFormed
  Expectation.WellFormed

/-- All that a reader knows of the program is well-formed. -/
structure Reader.WellFormed (reader : Reader) : Prop where
  opened : ∀ block ∈ reader.opened, block.owner.WellFormed ∧ Stmt.AllWellFormed block.around
  kept : Stmt.AllWellFormed reader.kept
  expects : reader.expects.WellFormed

theorem IfSite.wellFormed_conditionHole {site : IfSite} :
    site.conditionHole.WellFormed ↔ site.WellFormed := by
  cases site <;> rfl

/-- An operator moves well-formed parts only. -/
theorem Hole.WellFormed.behind (op : Operator) {left : Expr} {hole : Hole} (sound : hole.WellFormed)
    (value : left.WellFormed) : (hole.behind op left).WellFormed := by
  induction hole generalizing left with
  | right pending first outer ih =>
    unfold Hole.behind
    split
    · exact ⟨value, sound⟩
    · exact ih sound.2 ⟨sound.1, value⟩
  | negation outer ih => exact ih sound (Expr.wellFormed_negation.mpr value)
  | _ => exact ⟨value, sound⟩

/-- A run of digits has no sign. -/
theorem Reader.integer?_nonneg {lexeme : String} {value : Int64}
    (read : integer? lexeme = some value) : 0 ≤ value.toInt := by
  unfold integer? at read
  dsimp only at read
  split at read
  · rename_i bound
    cases read
    rw [Int64.toInt_ofNat_of_lt (by omega)]
    exact Int.natCast_nonneg _
  · cases read

namespace Reader.WellFormed

variable {reader : Reader} {token : Token}

theorem start : Reader.start.WellFormed :=
  ⟨fun _ member => absurd member List.not_mem_nil, trivial, trivial⟩

theorem await (sound : reader.WellFormed) {expects : Expectation} (next : expects.WellFormed) :
    (reader.await expects).WellFormed :=
  ⟨sound.opened, sound.kept, next⟩

/-- A statement that was read is added to those that are kept. -/
theorem keep (sound : reader.WellFormed) (stmt : Stmt) (read : stmt.WellFormed) :
    (reader.keep stmt).WellFormed :=
  ⟨sound.opened, ⟨read, sound.kept⟩, trivial⟩

/-- A fault leaves everything as it was but what is expected next. -/
theorem blame (sound : reader.WellFormed) (fault : Fault) (token : Token) :
    (reader.blame fault token).WellFormed :=
  ⟨sound.opened, sound.kept, trivial⟩

/-- What stands before a block that is given up is kept. -/
theorem finish (sound : reader.WellFormed) (token : Token) : (reader.finish token).WellFormed := by
  refine ⟨fun _ member => absurd member List.not_mem_nil, ?_, trivial⟩
  change Stmt.AllWellFormed ((reader.opened.getLast?.map OpenBlock.around).getD reader.kept)
  cases last : reader.opened.getLast? with
  | none => exact sound.kept
  | some block => exact (sound.opened block (List.mem_of_getLast? last)).2

/-- An integer is read from digits and has no sign, so nothing is asked of the token but that an
identifier is a name. -/
theorem feedOperand (sound : reader.WellFormed) {hole : Hole} (place : hole.WellFormed)
    (named : token.kind = .identifier → IsName token.lexeme) :
    (reader.feedOperand hole token).WellFormed := by
  unfold Reader.feedOperand
  split
  case h_1 =>
    split
    · rename_i read
      exact sound.await ⟨Reader.integer?_nonneg read, place⟩
    · exact sound.blame _ token
  case h_2 is => exact sound.await ⟨named is, place⟩
  case h_3 | h_4 => exact sound.await ⟨trivial, place⟩
  case h_10 => exact (sound.blame _ token).finish token
  case h_9 | h_11 => exact sound.blame _ token
  all_goals exact sound.await place

theorem completeIf (sound : reader.WellFormed) (value : Expr) (read : value.WellFormed)
    {site : IfSite} (place : site.WellFormed) : (reader.completeIf value site).WellFormed := by
  cases site with
  | statement => exact sound.keep (.expression value) read
  | operand hole => exact sound.await ⟨read, place⟩

theorem completeFunction (sound : reader.WellFormed) {parameters : List String}
    (names : ∀ name ∈ parameters, IsName name) {body : Block} (read : Stmt.AllWellFormed body)
    {site : FunctionSite} (place : site.WellFormed) :
    (reader.completeFunction parameters body site).WellFormed := by
  cases site with
  | statement name => exact sound.keep (.function name parameters body) ⟨place, names, read⟩
  | operand hole => exact sound.await ⟨⟨names, read⟩, place⟩

theorem close (sound : reader.WellFormed) {block : OpenBlock} {outer : List OpenBlock}
    (known : reader.opened = block :: outer) : (reader.close block outer).WellFormed := by
  obtain ⟨⟨owner, before⟩, later⟩ := List.forall_mem_cons.mp (known ▸ sound.opened)
  have around : ({ reader with opened := outer, kept := block.around } : Reader).WellFormed :=
    ⟨later, before, sound.expects⟩
  have body := Block.wellFormed_reverse.mpr sound.kept
  obtain ⟨of, _⟩ := block
  cases of with
  | consequence condition site => exact around.await ⟨owner.1, body, owner.2⟩
  | alternative condition consequence site =>
    exact around.completeIf (.ifElse condition consequence _) ⟨owner.1, owner.2.1, body⟩ owner.2.2
  | body parameters site => exact around.completeFunction owner.1 body owner.2

variable (named : token.kind = .identifier → IsName token.lexeme)

include named

theorem feedStatement (sound : reader.WellFormed) : (reader.feedStatement token).WellFormed := by
  unfold Reader.feedStatement
  split
  case h_7 =>
    split
    · exact sound.blame _ token
    · rename_i known
      exact sound.close known
  case h_8 => exact sound.finish token
  case h_9 => exact sound.feedOperand trivial named
  all_goals exact sound.await trivial

theorem refuse (sound : reader.WellFormed) (expected : Kind) :
    (reader.refuse expected token).WellFormed :=
  (sound.blame (.unexpected expected token.kind) token).feedStatement named

theorem expect (sound : reader.WellFormed) {kind : Kind} {next : Expectation}
    (goesOn : token.kind = kind → next.WellFormed) : (reader.expect kind next token).WellFormed := by
  unfold Reader.expect
  split
  · exact sound.await (goesOn ‹_›)
  · exact sound.refuse named kind

theorem expectBlock (sound : reader.WellFormed) {owner : BlockOwner} (begun : owner.WellFormed) :
    (reader.expectBlock owner token).WellFormed := by
  unfold Reader.expectBlock
  split
  · exact ⟨List.forall_mem_cons.mpr ⟨⟨begun, sound.kept⟩, sound.opened⟩, trivial, trivial⟩
  · exact sound.refuse named _

theorem settle (sound : reader.WellFormed) {value : Expr} (read : value.WellFormed) {hole : Hole}
    (place : hole.WellFormed) : (reader.settle token value hole).WellFormed := by
  induction hole generalizing value with
  | right op left outer ih => exact ih ⟨place.1, read⟩ place.2
  | negation outer ih => exact ih (Expr.wellFormed_negation.mpr read) place
  | argument callee earlier outer =>
    obtain ⟨function, before, outside⟩ := place
    have all : Expr.AllWellFormed (value :: earlier) := ⟨read, before⟩
    unfold Reader.settle
    split
    · exact sound.await ⟨function, all, outside⟩
    · refine sound.expect named fun _ => ⟨⟨function, ?_⟩, outside⟩
      rw [Expr.allWellFormed_iff] at all ⊢
      simpa only [List.mem_reverse] using all
  | group outer => exact sound.expect named fun _ => ⟨read, place⟩
  | statementCondition => exact sound.expect named fun _ => ⟨read, trivial⟩
  | condition outer => exact sound.expect named fun _ => ⟨read, place⟩
  | statement => exact (sound.keep (.expression value) read).feedStatement named
  | initializer name => exact (sound.keep (.var name value) ⟨place, read⟩).feedStatement named
  | result => exact (sound.keep (.returns value) read).feedStatement named
  | exitCode => exact (sound.keep (.exits value) read).feedStatement named

theorem feedOperator (sound : reader.WellFormed) {value : Expr} (read : value.WellFormed)
    {hole : Hole} (place : hole.WellFormed) : (reader.feedOperator value hole token).WellFormed := by
  unfold Reader.feedOperator
  split
  · exact sound.await ⟨read, place⟩
  · split
    · exact sound.await (place.behind _ read)
    · exact sound.settle named read place
  · exact sound.settle named read place

/-- A token keeps a reader well-formed if it is a name where it is an identifier. -/
theorem feed (sound : reader.WellFormed) : (reader.feed token).WellFormed := by
  have place := sound.expects
  unfold Reader.feed
  revert place
  cases reader.expects with
  | statement => exact fun _ => sound.feedStatement named
  | variableName => exact fun _ => sound.expect named named
  | equalSign name => exact fun place => sound.expect named fun _ => place
  | functionName =>
    intro _
    dsimp only
    split
    · exact sound.await (named ‹_›)
    · exact sound.expect named fun _ => trivial
  | operand hole => exact fun place => sound.feedOperand place named
  | operator value hole => exact fun place => sound.feedOperator named place.1 place.2
  | firstArgument callee hole =>
    intro place
    dsimp only
    split
    · exact sound.await ⟨⟨place.1, trivial⟩, place.2⟩
    · exact sound.feedOperand ⟨place.1, trivial, place.2⟩ named
  | conditionOpen site =>
    exact fun place => sound.expect named fun _ => IfSite.wellFormed_conditionHole.mpr place
  | consequenceOpen condition site => exact fun place => sound.expectBlock named place
  | elseWord condition consequence site =>
    intro place
    dsimp only
    split
    · exact sound.await place
    · have read : (Expr.ifThen condition consequence).WellFormed := ⟨place.1, place.2.1⟩
      cases site with
      | statement =>
        exact (sound.keep (.expression (.ifThen condition consequence)) read).feedStatement named
      | operand hole => exact sound.feedOperator named read place.2.2
  | alternativeOpen condition consequence site => exact fun place => sound.expectBlock named place
  | parametersOpen site => exact fun place => sound.expect named fun _ => place
  | firstParameter site =>
    intro place
    dsimp only
    split
    · exact sound.await ⟨fun _ member => absurd member List.not_mem_nil, place⟩
    · exact sound.expect named fun is => ⟨by simpa using named is, place⟩
  | nextParameter earlier site =>
    exact fun place => sound.expect named fun is =>
      ⟨List.forall_mem_cons.mpr ⟨named is, place.1⟩, place.2⟩
  | parametersEnd earlier site =>
    intro place
    dsimp only
    split
    · exact sound.await place
    · exact sound.expect named fun _ => place
  | bodyOpen earlier site =>
    refine fun place => sound.expectBlock named ⟨fun name member => ?_, place.2⟩
    exact place.1 name (List.mem_reverse.mp member)

omit named

/-- By induction over the tokens, all of whose identifiers are names. -/
theorem foldl {tokens : List Token}
    (named : ∀ token ∈ tokens, token.kind = .identifier → IsName token.lexeme)
    (sound : reader.WellFormed) : (tokens.foldl Reader.feed reader).WellFormed := by
  induction tokens generalizing reader with
  | nil => exact sound
  | cons token tokens ih =>
    obtain ⟨here, later⟩ := List.forall_mem_cons.mp named
    exact ih later (sound.feed here)

end Reader.WellFormed

/-- Whatever is wrong with a text, the statements that are kept of it are well-formed. -/
theorem wellFormed_program (text : String) : (read text).program.WellFormed := by
  have named : ∀ token ∈ scan text, token.kind = .identifier → IsName token.lexeme := by
    intro token member is
    have fits := scan_fits text token member (by rw [is]; simp)
    rw [is] at fits
    exact (isName_iff_fits token.lexeme).mpr fits
  exact Block.wellFormed_reverse.mpr (Reader.WellFormed.start.foldl named).kept

end ScopeScript
