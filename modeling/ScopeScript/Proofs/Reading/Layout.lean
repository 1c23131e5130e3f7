import ScopeScript.Proofs.Reading.Numbering
import ScopeScript.Proofs.Token.Layout

namespace ScopeScript

open Reader

/-- The same program is read from both texts, with the same faults in the same order, and the
tokens that a fault is about have the same index in both. -/
structure ReadAlike (text other : String) : Prop where
  program : (read text).program = (read other).program
  faults : (read text).errors.map SyntaxError.fault = (read other).errors.map SyntaxError.fault
  places : ∃ blamed, List.Forall₂ (SyntaxError.BlamesAt (scan text)) (read text).errors blamed ∧
    List.Forall₂ (SyntaxError.BlamesAt (scan other)) (read other).errors blamed

/-- What is read from a text depends on its words only. -/
theorem ReadAlike.of_words {text other : String}
    (same : (scan text).map Token.word = (scan other).map Token.word) : ReadAlike text other := by
  have alike := foldl_alike same start
  refine ⟨congrArg List.reverse alike.kept, ?_, _, forall₂_blamesAt (scan text), ?_⟩
  · have faults := congrArg List.reverse alike.faults
    rwa [← List.map_reverse, ← List.map_reverse] at faults
  · rw [marks_congr same]
    exact forall₂_blamesAt (scan other)

/-- Blanks do not matter: a text that is laid out anew has the same words, and texts with the
same words are read alike. -/
theorem layout_insensitive (text other : String) :
    (Relation.ReflTransGen Relaid text.toList other.toList →
        (scan text).map Token.word = (scan other).map Token.word) ∧
      ((scan text).map Token.word = (scan other).map Token.word → ReadAlike text other) :=
  ⟨fun relaid => collect_words_of_relaid relaid .start, .of_words⟩

/-- A sign that begins nothing, first behind the name before it and then on a line of its own. -/
theorem layout_insensitive_of_stray_sign :
    Relation.ReflTransGen Relaid "x)".toList " x\n)".toList ∧
      (scan "x)").map Token.word = (scan " x\n)").map Token.word ∧ ReadAlike "x)" " x\n)" := by
  have space : ∀ c ∈ [' '], isBlank c = true := List.forall_mem_singleton.mpr rfl
  have feed : ∀ c ∈ ['\n'], isBlank c = true := List.forall_mem_singleton.mpr rfl
  have apart : Apart ['x'] [')'] := by
    intro c _ d next kind _
    cases Option.mem_some.mp next
    exact kind.takes_sign .rightParen
  have first : Relaid "x)".toList "x )".toList :=
    @Relaid.insert ['x'] [' '] [')'] space apart.between
  have second : Relaid "x )".toList "x\n)".toList :=
    @Relaid.replace ['x'] [' '] ['\n'] [')'] (List.cons_ne_nil _ _) space (List.cons_ne_nil _ _) feed
  have third : Relaid "x\n)".toList " x\n)".toList := .addLeading space
  have relaid : Relation.ReflTransGen Relaid "x)".toList " x\n)".toList :=
    .tail (.tail (.single first) second) third
  obtain ⟨words, reads⟩ := layout_insensitive "x)" " x\n)"
  exact ⟨relaid, words relaid, reads (words relaid)⟩

end ScopeScript
