import Mathlib.Data.List.Induction
import ScopeScript.Proofs.Token.Pieces

namespace ScopeScript

/-- How many characters stand behind the last line feed. -/
def sinceLineFeed (text : List Char) : Nat :=
  (text.reverse.takeWhile (· != '\n')).length

/-- The end of a text, with all line feeds and the last line counted. -/
def Token.ofEnd (text : List Char) : Token :=
  ⟨.endOfInput, "", ⟨1 + text.count '\n', sinceLineFeed text⟩⟩

/-- A token and the number of characters before it in a text. -/
structure Run where
  start : Nat
  token : Token

def Run.stop (run : Run) : Nat := run.start + run.token.lexeme.length

/-- The lexeme of the token stands at its place, its position says where that is, the
kind is that of the lexeme, and neither neighbour would lengthen it. -/
structure Run.StandsIn (text : List Char) (run : Run) : Prop where
  lexeme : (text.drop run.start).take run.token.lexeme.length = run.token.lexeme.toList
  line : run.token.position.line = 1 + (text.take run.start).count '\n'
  column : run.token.position.column = sinceLineFeed (text.take run.start) + 1
  fits : run.token.kind.Fits run.token.lexeme.toList
  before : ∀ c ∈ (text.take run.start).getLast?, run.token.kind.takes c = false
  behind : ∀ c ∈ (text.drop run.stop).head?, run.token.kind.takes c = false

/-- Tokens that a text is cut into from a place on: they follow one another without
overlap, and every character outside them is blank. -/
structure Tokenizes (text : List Char) (offset : Nat) (runs : List Run) : Prop where
  stands : ∀ run ∈ runs, run.StandsIn text
  begins : ∀ run ∈ runs, offset ≤ run.start
  ordered : runs.Pairwise fun earlier later => earlier.stop ≤ later.start
  covers : ∀ index c, offset ≤ index → text[index]? = some c →
    (∀ run ∈ runs, index < run.start ∨ run.stop ≤ index) → isBlank c = true

theorem Position.start_afterAll (text : List Char) :
    Position.start.afterAll text = ⟨1 + text.count '\n', sinceLineFeed text⟩ := by
  induction text using List.reverseRecOn with
  | nil => rfl
  | append_singleton text c ih =>
    rw [Position.afterAll_append, ih, Position.afterAll_cons, Position.afterAll_nil, Position.after]
    by_cases feed : c = '\n'
    · subst feed
      simp [sinceLineFeed, Nat.add_assoc]
    · simp [feed, sinceLineFeed]

/-- The place of a character that is no line feed, counted from the text before it. -/
theorem Position.start_afterAll_after {c : Char} (solid : isBlank c = false) (text : List Char) :
    (Position.start.afterAll text).after c = ⟨1 + text.count '\n', sinceLineFeed text + 1⟩ := by
  have notFeed : c ≠ '\n' := by
    rintro rfl
    exact absurd solid (by decide)
  rw [Position.start_afterAll, Position.after, if_neg notFeed]

namespace Run.StandsIn

variable {before behind : List Char} {run : Run}

/-- A place inside a text splits it in three. -/
theorem split {rest : List Char} (stands : run.StandsIn (before ++ rest))
    (begins : before.length ≤ run.start) :
    ∃ gap behind, rest = gap ++ run.token.lexeme.toList ++ behind ∧
      run.start = (before ++ gap).length := by
  obtain ⟨skipped, known⟩ := Nat.exists_eq_add_of_le begins
  have lexeme := stands.lexeme
  rw [known, List.drop_length_add_append] at lexeme
  have some? := List.length_pos_iff.mpr stands.fits.ne_nil
  have within : skipped ≤ rest.length := by
    have length := congrArg List.length lexeme
    rw [List.length_take, List.length_drop] at length
    omega
  refine ⟨rest.take skipped, (rest.drop skipped).drop run.token.lexeme.length, ?_, ?_⟩
  · rw [← lexeme, List.append_assoc, List.take_append_drop, List.take_append_drop]
  · rw [List.length_append, List.length_take, Nat.min_eq_left within, known]

theorem iff_of_split (starts : run.start = before.length) :
    run.StandsIn (before ++ run.token.lexeme.toList ++ behind) ↔
      run.token.position = ⟨1 + before.count '\n', sinceLineFeed before + 1⟩ ∧
        run.token.kind.Fits run.token.lexeme.toList ∧
        (∀ c ∈ before.getLast?, run.token.kind.takes c = false) ∧
        ∀ c ∈ behind.head?, run.token.kind.takes c = false := by
  have length : run.token.lexeme.length = run.token.lexeme.toList.length :=
    String.length_toList.symm
  have front : (before ++ run.token.lexeme.toList ++ behind).take run.start = before := by
    rw [starts, List.append_assoc, List.take_left]
  have lexeme : ((before ++ run.token.lexeme.toList ++ behind).drop run.start).take
      run.token.lexeme.length = run.token.lexeme.toList := by
    rw [starts, List.append_assoc, List.drop_left, length, List.take_left]
  have back : (before ++ run.token.lexeme.toList ++ behind).drop run.stop = behind := by
    rw [Run.stop, starts, length, ← List.length_append, List.drop_left]
  constructor
  · intro stands
    have line := stands.line
    have column := stands.column
    have first := stands.before
    have last := stands.behind
    rw [front] at line column first
    rw [back] at last
    refine ⟨?_, stands.fits, first, last⟩
    rw [← line, ← column]
  · rintro ⟨position, fits, first, last⟩
    refine ⟨lexeme, ?_, ?_, fits, ?_, ?_⟩
    · rw [front, position]
    · rw [front, position]
    · rwa [front]
    · rwa [back]

end Run.StandsIn

theorem Token.ofEnd_append (before behind : List Char) :
    Token.ofEnd (before ++ behind) =
      ⟨.endOfInput, "", (Position.start.afterAll before).afterAll behind⟩ := by
  rw [← Position.afterAll_append, Position.start_afterAll]
  rfl

theorem mem_of_mem_getLast?_append {before run : List Char} {c : Char} (some? : run ≠ [])
    (last : c ∈ (before ++ run).getLast?) : c ∈ run := by
  rw [Option.mem_def, List.getLast?_append, List.getLast?_eq_some_getLast some?,
    Option.some_or] at last
  cases last
  exact List.getLast_mem some?

/-- Two neighbours that no token can both hold. -/
def Apart (before behind : List Char) : Prop :=
  ∀ c ∈ before.getLast?, ∀ d ∈ behind.head?, ∀ kind : Kind, kind.takes c = true → kind.takes d = false

theorem Apart.behind_lexeme {kind : Kind} {before run rest : List Char} (fits : kind.Fits run)
    (ends : ∀ c ∈ rest.head?, kind.takes c = false) : Apart (before ++ run) rest := by
  intro c last d next other taken
  rw [fits.takes_eq (mem_of_mem_getLast?_append fits.ne_nil last) taken]
  exact ends d next

theorem Apart.of_append {before run behind : List Char} (apart : Apart (before ++ run) behind) :
    Apart run behind := by
  intro c last
  refine apart c ?_
  rw [Option.mem_def, List.getLast?_append, Option.mem_def.mp last]
  rfl

/-- A token at the end of the one text is not lengthened by the other. -/
theorem Apart.ends_lexeme {kind : Kind} {before run behind : List Char} (fits : kind.Fits run)
    (apart : Apart (before ++ run) behind) : ∀ c ∈ behind.head?, kind.takes c = false := by
  intro c next
  refine Bool.eq_false_iff.mpr fun taken => ?_
  have last := fits.takes_all taken _ (List.getLast_mem fits.ne_nil)
  have other := apart.of_append _ (List.getLast?_eq_some_getLast fits.ne_nil) c next kind last
  rw [taken] at other
  exact Bool.false_ne_true other.symm

/-- No token can be longer to the left than the blanks before it and its first character allow. -/
theorem Apart.before_lexeme {kind : Kind} {before gap more rest : List Char} {first : Char}
    (apart : Apart before (gap ++ first :: more ++ rest)) (blank : ∀ c ∈ gap, isBlank c = true)
    (fits : kind.Fits (first :: more)) :
    ∀ c ∈ (before ++ gap).getLast?, kind.takes c = false := by
  intro c last
  refine Bool.eq_false_iff.mpr fun taken => ?_
  cases gap with
  | nil =>
    rw [List.append_nil] at last
    have other := apart c last first rfl kind taken
    rw [fits.takes_all taken first List.mem_cons_self] at other
    exact Bool.false_ne_true other.symm
  | cons d gap =>
    have isBlank := blank c (mem_of_mem_getLast?_append (List.cons_ne_nil _ _) last)
    rw [Kind.isBlank_of_takes taken] at isBlank
    exact Bool.false_ne_true isBlank

namespace Tokenizes

variable {text before gap behind rest : List Char} {offset : Nat} {run : Run} {runs : List Run}

/-- What stands before the first token is blank. -/
theorem blank_before (tokenizes : Tokenizes (before ++ gap ++ behind) before.length (run :: runs))
    (starts : run.start = (before ++ gap).length) : ∀ c ∈ gap, isBlank c = true := by
  intro c member
  obtain ⟨index, found⟩ := List.mem_iff_getElem?.mp member
  have inside := (List.getElem?_eq_some_iff.mp found).1
  have early : before.length + index < run.start := by
    rw [starts, List.length_append]
    omega
  refine tokenizes.covers (before.length + index) c (Nat.le_add_right _ _) ?_ ?_
  · rw [List.append_assoc, List.getElem?_append_right (Nat.le_add_right _ _),
      Nat.add_sub_cancel_left, List.getElem?_append_left inside, found]
  · refine List.forall_mem_cons.mpr ⟨.inl early, fun later member => .inl ?_⟩
    have next := (List.pairwise_cons.mp tokenizes.ordered).1 later member
    unfold Run.stop at next
    omega

theorem tail (tokenizes : Tokenizes text offset (run :: runs)) :
    Tokenizes text run.stop runs := by
  obtain ⟨apart, ordered⟩ := List.pairwise_cons.mp tokenizes.ordered
  refine ⟨fun later member => tokenizes.stands later (List.mem_cons_of_mem _ member), apart,
    ordered, ?_⟩
  intro index c inside found outside
  have begins := tokenizes.begins run List.mem_cons_self
  refine tokenizes.covers index c ?_ found (List.forall_mem_cons.mpr ⟨.inr inside, outside⟩)
  unfold Run.stop at inside
  omega

theorem cons (tokenizes : Tokenizes (before ++ gap ++ behind) run.stop runs)
    (stands : run.StandsIn (before ++ gap ++ behind)) (starts : run.start = (before ++ gap).length)
    (blank : ∀ c ∈ gap, isBlank c = true) :
    Tokenizes (before ++ gap ++ behind) before.length (run :: runs) := by
  refine ⟨List.forall_mem_cons.mpr ⟨stands, tokenizes.stands⟩, ?_,
    List.pairwise_cons.mpr ⟨tokenizes.begins, tokenizes.ordered⟩, ?_⟩
  · have starting : before.length ≤ run.start := by
      rw [starts, List.length_append]
      omega
    refine List.forall_mem_cons.mpr ⟨starting, fun later member => ?_⟩
    have next := tokenizes.begins later member
    unfold Run.stop at next
    omega
  · intro index c inside found outside
    obtain ⟨here, later⟩ := List.forall_mem_cons.mp outside
    rcases here with front | back
    · rw [starts] at front
      rw [List.getElem?_append_left front, List.getElem?_append_right inside] at found
      exact blank c (List.mem_of_getElem? found)
    · exact tokenizes.covers index c back found later

/-- What the scanner finds behind a part of a text is cut out of the rest. -/
theorem of_collect (pieces : Pieces rest) (apart : Apart before rest) :
    ∃ runs, Tokenizes (before ++ rest) before.length runs ∧
      (Cursor.mk rest (Position.start.afterAll before)).collect [] =
        runs.map Run.token ++ [Token.ofEnd (before ++ rest)] := by
  induction pieces generalizing before with
  | @blank rest blank =>
    refine ⟨[], ⟨by simp, by simp, .nil, ?_⟩, ?_⟩
    · intro index c inside found _
      rw [List.getElem?_append_right inside] at found
      exact blank c (List.mem_of_getElem? found)
    · rw [Cursor.collect_of_blank blank, Token.ofEnd_append]
      rfl
  | @token gap more rest first kind blank fits ends _ ih =>
    obtain ⟨runs, tokenizes, collected⟩ :=
      @ih (before ++ gap ++ first :: more) (.behind_lexeme fits ends)
    have solid := fits.isBlank_eq_false first List.mem_cons_self
    let run : Run := ⟨(before ++ gap).length,
      ⟨kind, String.ofList (first :: more), (Position.start.afterAll (before ++ gap)).after first⟩⟩
    have spelled : run.token.lexeme.toList = first :: more := String.toList_ofList
    have stops : run.stop = (before ++ gap ++ first :: more).length := by
      rw [List.length_append, ← spelled, String.length_toList, Run.stop]
    have stands : run.StandsIn (before ++ gap ++ first :: more ++ rest) := by
      rw [← spelled]
      refine (Run.StandsIn.iff_of_split rfl).mpr ⟨?_, by rwa [spelled], ?_, ends⟩
      · exact Position.start_afterAll_after solid _
      · exact apart.before_lexeme blank fits
    rw [← stops] at tokenizes
    have same : before ++ gap ++ (first :: more ++ rest) = before ++ (gap ++ first :: more ++ rest) := by
      simp only [List.append_assoc]
    rw [List.append_assoc (before ++ gap), same] at tokenizes stands collected
    refine ⟨run :: runs, same ▸ (same ▸ tokenizes).cons (same ▸ stands) rfl blank, ?_⟩
    rw [Cursor.collect_of_fits blank fits ends, List.map_cons, List.cons_append, ← collected,
      ← Position.afterAll_append, ← Position.afterAll_append, ← List.append_assoc]

/-- No other tokens are cut out of a text in this way. -/
theorem collect_eq (tokenizes : Tokenizes (before ++ rest) before.length runs) :
    (Cursor.mk rest (Position.start.afterAll before)).collect [] =
      runs.map Run.token ++ [Token.ofEnd (before ++ rest)] := by
  induction runs generalizing before rest with
  | nil =>
    have blank : ∀ c ∈ rest, isBlank c = true := by
      intro c member
      obtain ⟨index, found⟩ := List.mem_iff_getElem?.mp member
      refine tokenizes.covers (before.length + index) c (Nat.le_add_right _ _) ?_ (by simp)
      rwa [List.getElem?_append_right (Nat.le_add_right _ _), Nat.add_sub_cancel_left]
    rw [Cursor.collect_of_blank blank, Token.ofEnd_append]
    rfl
  | cons run runs ih =>
    have stands := tokenizes.stands run List.mem_cons_self
    obtain ⟨gap, behind, rfl, starts⟩ := stands.split (tokenizes.begins run List.mem_cons_self)
    have same : before ++ (gap ++ run.token.lexeme.toList ++ behind) =
        before ++ gap ++ run.token.lexeme.toList ++ behind := by
      simp only [List.append_assoc]
    rw [same] at stands tokenizes ⊢
    obtain ⟨position, fits, _, ends⟩ := (Run.StandsIn.iff_of_split starts).mp stands
    obtain ⟨first, more, spelled⟩ := List.exists_cons_of_ne_nil fits.ne_nil
    have stops : run.stop = (before ++ gap ++ run.token.lexeme.toList).length := by
      rw [List.length_append, String.length_toList, ← starts, Run.stop]
    have collected := ih (stops ▸ tokenizes.tail)
    rw [List.append_assoc] at tokenizes
    have blank := tokenizes.blank_before starts
    have token : run.token = ⟨run.token.kind, String.ofList (first :: more),
        ((Position.start.afterAll before).afterAll gap).after first⟩ := by
      have solid := fits.isBlank_eq_false first (spelled ▸ List.mem_cons_self)
      rw [← Position.afterAll_append, Position.start_afterAll_after solid, ← spelled,
        String.ofList_toList, ← position]
    rw [spelled] at fits collected ⊢
    rw [Cursor.collect_of_fits blank fits ends, ← token, List.map_cons, List.cons_append, ← collected,
      ← Position.afterAll_append, ← List.append_assoc]

end Tokenizes

/-- Every character that is no blank is in a lexeme, in its order. -/
theorem Pieces.flatMap_lexeme {text : List Char} (pieces : Pieces text) (position : Position) :
    (((Cursor.mk text position).collect []).flatMap fun token => token.lexeme.toList) =
      text.filter fun c => !isBlank c := by
  induction pieces generalizing position with
  | blank blank =>
    rw [Cursor.collect_of_blank blank, List.filter_eq_nil_iff.mpr (by simpa using blank)]
    rfl
  | @token gap more rest first kind blank fits ends _ ih =>
    have skipped : gap.filter (fun c => !isBlank c) = [] :=
      List.filter_eq_nil_iff.mpr (by simpa using blank)
    have kept : (first :: more).filter (fun c => !isBlank c) = first :: more :=
      List.filter_eq_self.mpr fun c member => by simp [fits.isBlank_eq_false c member]
    rw [Cursor.collect_of_fits blank fits ends, List.flatMap_cons, ih, String.toList_ofList,
      List.filter_append, List.filter_append, skipped, kept, List.nil_append]

/-- The scanner finds the tokens that a text is cut into, and no text can be cut in two
ways. Whatever is outside of them is blank, so nothing else of the text is lost. -/
theorem scan_exact (text : String) :
    ∃ tokens, scan text = tokens ++ [Token.ofEnd text.toList] ∧
      (∀ token ∈ tokens, token.kind ≠ .endOfInput) ∧
      (tokens.flatMap fun token => token.lexeme.toList) =
        text.toList.filter (fun c => !isBlank c) ∧
      ∀ others, (∃ runs, Tokenizes text.toList 0 runs ∧ runs.map Run.token = others) ↔
        others = tokens := by
  have pieces := Pieces.of text.toList
  obtain ⟨runs, tokenizes, collected⟩ := @Tokenizes.of_collect [] _ pieces (by simp [Apart])
  have scanned : scan text = runs.map Run.token ++ [Token.ofEnd text.toList] := collected
  refine ⟨runs.map Run.token, scanned, ?_, ?_, ?_⟩
  · intro token member
    obtain ⟨run, known, rfl⟩ := List.mem_map.mp member
    exact (tokenizes.stands run known).fits.ne_endOfInput
  · have lexemes := pieces.flatMap_lexeme .start
    rw [show (Cursor.mk text.toList .start).collect [] = scan text from rfl, scanned,
      List.flatMap_append] at lexemes
    rw [← lexemes]
    exact (List.append_nil _).symm
  · intro others
    constructor
    · rintro ⟨other, cut, rfl⟩
      have same := @Tokenizes.collect_eq [] _ _ cut
      exact List.append_cancel_right (same.symm.trans collected)
    · rintro rfl
      exact ⟨runs, tokenizes, rfl⟩

end ScopeScript
