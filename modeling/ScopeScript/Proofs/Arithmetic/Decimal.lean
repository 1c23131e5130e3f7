import ScopeScript.Evaluation.Outcome
import ScopeScript.Proofs.Arithmetic.Exact
import ScopeScript.Proofs.Program.RoundTrip
import ScopeScript.Proofs.Reading.Digits
import ScopeScript.Proofs.Store.Chain
import ScopeScript.Proofs.Token.Layout

namespace ScopeScript

open Evaluation

/-- The decimal form of a number is its digits, with a sign before them if it is
negative. -/
theorem repr_eq_natAbs (number : Int) :
    number.repr = if number < 0 then "-" ++ number.natAbs.repr else number.natAbs.repr := by
  rw [Int.repr_eq_if]
  by_cases negative : number < 0
  · have digits : (-number).toNat = number.natAbs := by omega
    rw [if_neg (by omega), if_pos negative, digits]
  · have digits : number.toNat = number.natAbs := by omega
    rw [if_pos (by omega), if_neg negative, digits]

/-- Only the smallest number has no opposite. -/
theorem toInt_neg_of_ne_minValue {value : Int64} (other : value ≠ Int64.minValue) :
    (-value).toInt = -value.toInt := by
  have lower := Int64.le_toInt value
  have upper := Int64.toInt_lt value
  have above : value.toInt ≠ Int64.minValue.toInt := mt Int64.toInt_inj.mp other
  rw [Int64.toInt_minValue] at above
  have fits : (Int64.ofInt (-value.toInt)).toInt = -value.toInt :=
    Int64.toInt_ofInt_of_le (by omega) (by omega)
  rwa [Int64.ofInt_neg, Int64.ofInt_toInt] at fits

/-- What a decimal number is read as. -/
def Calculation.number (value : Int64) : Calculation :=
  if value.toInt < 0 then combined .subtract (literal 0) (literal (-value)) else literal value

theorem Calculation.undivided_number (value : Int64) : (number value).Undivided := by
  unfold number
  split
  · exact ⟨by decide, trivial, trivial⟩
  · exact trivial

theorem Calculation.exact_number {value : Int64} (other : value ≠ Int64.minValue) :
    (number value).exact = value.toInt := by
  unfold number
  split
  · simp [exact, Arithmetic.exact, toInt_neg_of_ne_minValue other]
  · rfl

/-- The words of a decimal number: its sign is a word of its own. -/
def numeral (value : Int64) : List String :=
  if value.toInt < 0 then ["-", value.toInt.natAbs.repr] else [value.toInt.natAbs.repr]

theorem numeral_ne_nil (value : Int64) : numeral value ≠ [] := by
  unfold numeral
  split <;> exact List.cons_ne_nil _ _

/-- A decimal number is read as such, but for the smallest, of which the digits are
too large. -/
theorem Spell.numeral (value : Int64) :
    Spell (numeral value) fun tokens =>
      (value ≠ Int64.minValue →
        Expr.Derives Operator.negationLevel tokens (Calculation.number value).expr) ∧
      (value = Int64.minValue →
        ∃ token ∈ tokens, token.kind = .integer ∧ token.lexeme = "9223372036854775808") := by
  unfold ScopeScript.numeral Calculation.number
  split
  · rename_i negative
    refine ((Spell.digits _).sign .minus).mono ?_
    rintro _ ⟨mark, _, rfl, minus, token, rfl, is, lexeme, stands⟩
    refine ⟨fun other => ?_, ?_⟩
    · refine .negation minus (.tighter (.integer is ?_))
      rw [stands, toInt_neg_of_ne_minValue other]
      omega
    · rintro rfl
      exact ⟨token, List.mem_cons_of_mem mark List.mem_cons_self, is, lexeme⟩
  · rename_i nonneg
    refine (Spell.digits _).mono ?_
    rintro _ ⟨token, rfl, is, _, stands⟩
    refine ⟨fun _ => .tighter (.integer is ?_), ?_⟩
    · rw [stands]
      omega
    · rintro rfl
      exact absurd (by decide) nonneg

/-- The name `x` is bound to an expression and then asked for. -/
theorem Spell.binding {words : List String} {property : List Token → Prop}
    (inside : Spell words property) :
    Spell ("var" :: "x" :: "=" :: words ++ [";", "x"]) fun tokens => ∃ inner, inner ⊆ tokens ∧
      property inner ∧ ∀ value, Expr.Derives 1 inner value →
        Block.Derives tokens [.var "x" value, .expression (.name "x")] := by
  have named : IsName "x" := by decide
  refine ((((inside.sign .equal).name named).keyword .varWord).append
    ((Spell.nil.name named).sign .semicolon)).mono ?_
  rintro _ ⟨_, _, rfl, ⟨word, _, rfl, isVar, called, _, rfl, isName, same, mark, inner, rfl, equal,
    holds⟩, ended, _, rfl, semicolon, asked, _, rfl, isAsked, sameAsked, rfl⟩
  refine ⟨inner, ?_, holds, fun value derived => ?_⟩
  · intro token member
    simp [member]
  · have bound : Stmt.Derives .expression (word :: called :: mark :: inner) (.var "x" value) :=
      same ▸ .var isVar isName equal derived
    have last : Stmt.Derives .expression [asked] (.expression (.name "x")) :=
      .expression (sameAsked ▸ (Expr.Derives.name isAsked).looser (by decide)) (by simp [isAsked])
    exact .ended bound semicolon (.unended last (by simp) .nil)

/-- A blank comes between the sign of a decimal number and its digits. -/
theorem relaid_numeral (before behind : List Char) (value : Int64) :
    Relation.ReflTransGen Relaid (before ++ value.toInt.repr.toList ++ behind)
      (before ++ (" ".intercalate (numeral value)).toList ++ behind) := by
  rw [repr_eq_natAbs]
  unfold numeral
  split
  · have blank : ∀ c ∈ [' '], isBlank c = true := List.forall_mem_singleton.mpr rfl
    have apart : Apart (before ++ ['-']) (value.toInt.natAbs.repr.toList ++ behind) := by
      intro c last d _ kind taken
      cases List.mem_singleton.mp (mem_of_mem_getLast?_append (List.cons_ne_nil _ _) last)
      have stops : kind.takes '-' = false := kind.takes_sign .minus
      exact absurd taken (by simp [stops])
    have step := @Relaid.insert _ [' '] _ blank apart.between
    simpa using Relation.ReflTransGen.single step
  · simpa using Relation.ReflTransGen.refl

namespace Arithmetic

/-- Two numbers in decimal with an operator between them, bound to a name that is
then asked for. -/
def text (op : Arithmetic) (left right : Int64) : String :=
  "var x = " ++ left.toInt.repr ++ " " ++ op.operator.symbol ++ " " ++ right.toInt.repr ++ "; x"

def words (op : Arithmetic) (left right : Int64) : List String :=
  "var" :: "x" :: "=" :: (numeral left ++ op.operator.symbol :: numeral right) ++ [";", "x"]

/-- The program that the text is meant to be. -/
def program (op : Arithmetic) (left right : Int64) : Block :=
  [.var "x" (Calculation.combined op (.number left) (.number right)).expr, .expression (.name "x")]

/-- With a blank behind each sign and before the semicolon the text is its words. -/
theorem relaid_text (op : Arithmetic) (left right : Int64) :
    Relation.ReflTransGen Relaid (op.text left right).toList
      (" ".intercalate (op.words left right)).toList := by
  let lead := "var x = ".toList
  let middle := (" " ++ op.operator.symbol ++ " ").toList
  have space : ∀ c ∈ [' '], isBlank c = true := List.forall_mem_singleton.mpr rfl
  have ends (before : List Char) : Apart before "; x".toList := by
    intro c _ d next kind _
    cases Option.mem_some.mp next
    exact kind.takes_sign .semicolon
  have first := relaid_numeral lead (middle ++ right.toInt.repr.toList ++ "; x".toList) left
  have second := relaid_numeral (lead ++ (" ".intercalate (numeral left)).toList ++ middle)
    "; x".toList right
  have third := Relaid.insert space (ends (lead ++ (" ".intercalate (numeral left)).toList ++
    middle ++ (" ".intercalate (numeral right)).toList)).between
  simp only [List.append_assoc] at first second third
  have whole := (first.trans second).tail third
  simpa [text, words, lead, middle, String.intercalate_append_of_ne_nil, numeral_ne_nil,
    String.intercalate_cons_of_ne_nil] using whole

/-- The words are those of a program with the two numbers in it, or there are digits
among them that are too large. -/
theorem spell (op : Arithmetic) (left right : Int64) :
    Spell (op.words left right) fun tokens =>
      (left ≠ Int64.minValue → right ≠ Int64.minValue →
        Block.Derives tokens (op.program left right)) ∧
      (left = Int64.minValue ∨ right = Int64.minValue →
        ∃ token ∈ tokens, token.kind = .integer ∧ token.lexeme = "9223372036854775808") := by
  refine (((Spell.numeral left).between op.operator (.numeral right)).binding).mono ?_
  rintro tokens ⟨_, within, ⟨first, mark, second, sign, rfl, marks, is, readLeft, readRight⟩, derives⟩
  refine ⟨fun leftOther rightOther => derives _ ?_, ?_⟩
  · have below := op.operator.level_lt_negationLevel
    have whole := Expr.Derives.binary ((readLeft.1 leftOther).looser below.le) marks is
      ((readRight.1 rightOther).looser below)
    exact whole.looser op.operator.level_pos
  · rintro (least | least)
    · obtain ⟨token, member, digits⟩ := readLeft.2 least
      exact ⟨token, within (List.mem_append_left _ member), digits⟩
    · obtain ⟨token, member, digits⟩ := readRight.2 least
      exact ⟨token, within (List.mem_append_right _ (List.mem_cons_of_mem mark member)), digits⟩

theorem same_words (op : Arithmetic) (left right : Int64) :
    (scan (op.text left right)).map Token.word =
      (scan (" ".intercalate (op.words left right))).map Token.word :=
  collect_words_of_relaid (op.relaid_text left right) .start

theorem parse_text (op : Arithmetic) {left right : Int64} (leftOther : left ≠ Int64.minValue)
    (rightOther : right ≠ Int64.minValue) :
    parse (op.text left right) = .ok (op.program left right) :=
  parse_of_spell ((op.spell left right).mono fun _ known => known.1 leftOther rightOther)
    (op.same_words left right)

theorem parse_text_of_minValue (op : Arithmetic) {left right : Int64}
    (least : left = Int64.minValue ∨ right = Int64.minValue) :
    ∃ errors position, parse (op.text left right) = .error errors ∧
      ⟨.tooLarge "9223372036854775808", position⟩ ∈ errors := by
  obtain ⟨tokens, last, scanned, _, known⟩ := (op.spell left right).scan (op.same_words left right)
  obtain ⟨token, member, is, digits⟩ := known.2 least
  have within : token ∈ scan (op.text left right) := scanned ▸ List.mem_append_left _ member
  have large : Reader.integer? token.lexeme = none := by
    rw [digits]
    decide
  obtain ⟨errors, refused, reported⟩ := parse_of_tooLarge within is large
  refine ⟨errors, token.position, refused, ?_⟩
  rwa [Token.tooLarge, digits] at reported

end Arithmetic

/-- What `x` is bound to is what a program ends with that asks for it. -/
theorem Calculation.interpret_binding {calculation : Calculation} {value : Int64}
    (found : calculation.value? = some value) (depth : Nat) :
    (Machine.start.interpret depth [.var "x" calculation.expr, .expression (.name "x")]).1 =
      .completed (.finished (some (.integer value))) := by
  have ran := calculation.perform_expr (invoke depth) .start
  rw [found] at ran
  let defined : Machine := { Machine.start with
    store := Machine.start.store.define Machine.start.current "x" (.integer value) }
  have bound : ((Stmt.var "x" calculation.expr).exec (invoke depth)).perform .start =
      (.ok (some (.integer value)), defined) := by
    rw [Stmt.exec, perform_bind, ran]
    rfl
  have asked : ((Stmt.expression (.name "x")).exec (invoke depth)).perform defined =
      (.ok (some (.integer value)), defined) := by
    have opened : Machine.start.current < Machine.start.store.scopes.size := by decide
    have meaning := Store.lookup_define_self opened "x" (.integer value)
    rw [Stmt.exec, Expr.eval, perform_bind, perform_lookup, Store.get, meaning]
    rfl
  rw [Machine.interpret, Stmt.execAll, perform_bind, bound]
  simp only [Stmt.execAll, bind_pure, asked]
  rfl

/-- The text of an operation on two numbers is a program that ends in the exact result wrapped to 64
bits, unless one of them is the smallest number. Then it is no program: there are no negative
literals, and the digits of that number are one more than the largest. -/
theorem interpret_text {op : Arithmetic} (undivided : op ≠ .divide) (left right : Int64) :
    (left ≠ Int64.minValue → right ≠ Int64.minValue →
      ∃ program, parse (op.text left right) = .ok program ∧
        ∀ depth, ∃ value, (Machine.start.interpret depth program).1 =
            .completed (.finished (some (.integer value))) ∧
          value.toInt = (op.exact left.toInt right.toInt).bmod Int64.size) ∧
    (left = Int64.minValue ∨ right = Int64.minValue →
      ∃ errors position, parse (op.text left right) = .error errors ∧
        ⟨.tooLarge "9223372036854775808", position⟩ ∈ errors) := by
  refine ⟨fun leftOther rightOther => ?_, op.parse_text_of_minValue⟩
  refine ⟨op.program left right, op.parse_text leftOther rightOther, fun depth => ?_⟩
  have sound : (Calculation.combined op (.number left) (.number right)).Undivided :=
    ⟨undivided, Calculation.undivided_number left, Calculation.undivided_number right⟩
  have found := Calculation.value?_of_undivided sound
  rw [Calculation.exact, Calculation.exact_number leftOther,
    Calculation.exact_number rightOther] at found
  exact ⟨_, Calculation.interpret_binding found depth, Int64.toInt_ofInt⟩

/-- Twice the opposite of the largest number is two, and the sum of the smallest and
zero is no program. -/
theorem interpret_text_of_overflow :
    (∃ program, parse (Arithmetic.text .multiply (-Int64.maxValue) 2) = .ok program ∧
      ∀ depth, ∃ value, (Machine.start.interpret depth program).1 =
          .completed (.finished (some (.integer value))) ∧ value.toInt = 2) ∧
    ∃ errors position, parse (Arithmetic.text .add Int64.minValue 0) = .error errors ∧
      ⟨.tooLarge "9223372036854775808", position⟩ ∈ errors := by
  constructor
  · have multiplied := @interpret_text .multiply (by decide) (-Int64.maxValue) 2
    exact multiplied.1 (by decide) (by decide)
  · have added := @interpret_text .add (by decide) Int64.minValue 0
    exact added.2 (.inl rfl)

/-- The sum of the smallest number and zero is the smallest number, but in decimal it
is not read as a program. -/
theorem not_parse_sum_of_smallest :
    Arithmetic.text .add Int64.minValue 0 = "var x = -9223372036854775808 + 0; x" ∧
      ¬ ∃ program, parse "var x = -9223372036854775808 + 0; x" = .ok program := by
  have spelled : Arithmetic.text .add Int64.minValue 0 = "var x = -9223372036854775808 + 0; x" := by
    decide
  refine ⟨spelled, ?_⟩
  rintro ⟨program, parsed⟩
  obtain ⟨errors, _, refused, _⟩ :=
    @Arithmetic.parse_text_of_minValue .add Int64.minValue 0 (.inl rfl)
  rw [spelled, parsed] at refused
  cases refused

end ScopeScript
