import Inliner.Proofs.Syntax.Statements
import Inliner.Source.Parsed

/-!
# Where the statements of a source stand

The top-level statements of a source are those of its program, and the backslashes that join
lines between them.  All of them stand in order, each starts with code, and none stands in a
comment at the beginning of the text.
-/

namespace Inliner

open Syntax

/-! ## Joined lines -/

theorem startsCode_backslash
    {text rest : Text}
    {offset : Nat}
    (start : '\\' :: rest <+: text.drop offset) :
    StartsCode text offset := by
  obtain ⟨more, equal⟩ := start
  refine ⟨'\\', ?_, by decide⟩
  rw [← List.head?_drop, ← equal]
  rfl

theorem prefix_drop_of_cons
    {text rest : Text}
    {first : Char}
    {offset : Nat}
    (start : first :: rest <+: text.drop offset) :
    rest <+: text.drop (offset + 1) := by
  obtain ⟨more, equal⟩ := start
  refine ⟨more, ?_⟩
  rw [← List.drop_drop, ← equal]
  rfl

/-- The length of what is left of a comment at the start of a text. -/
def commentRest (inComment : Bool) (text : Text) : Nat :=
  if inComment then (text.takeWhile (· ≠ '\n')).length else 0

@[simp]
theorem commentRest_false (text : Text) : commentRest false text = 0 :=
  rfl

@[simp]
theorem commentRest_nil (inComment : Bool) : commentRest inComment [] = 0 := by
  cases inComment <;> rfl

@[simp]
theorem commentRest_newline (inComment : Bool) (rest : Text) :
    commentRest inComment ('\n' :: rest) = 0 := by
  cases inComment <;> rfl

theorem commentRest_cons_le (inComment : Bool) (first : Char) (rest : Text) :
    commentRest inComment (first :: rest) ≤ 1 + commentRest inComment rest := by
  cases inComment with
  | false => simp
  | true =>
      by_cases newline : first = '\n'
      · simp [newline]
      · simp [commentRest, newline, Nat.add_comm]

theorem commentRest_le_true (inComment : Bool) (text : Text) :
    commentRest inComment text ≤ commentRest true text := by
  cases inComment <;> simp

/-- Joined lines stand in order in the text they are found in, and after the comment that the text
may start in. -/
theorem spansWithin_lineJoins
    (text : Text)
    (inComment : Bool)
    (offset : Nat)
    (part : Text)
    (start : part <+: text.drop offset) :
    SpansWithin text
      (offset + commentRest inComment part) (offset + part.length)
      (lineJoins inComment offset part) := by
  fun_induction lineJoins inComment offset part with
  | case1 => exact .nil (by simp)
  | case2 inComment offset rest inductionHypothesis =>
      have within := inductionHypothesis (prefix_drop_of_cons start)
      exact within.mono (by simp) (by simp; omega)
  | case3 offset rest inductionHypothesis =>
      have within := inductionHypothesis (prefix_drop_of_cons (prefix_drop_of_cons start))
      have bound := commentRest_cons_le true '\\' ('\n' :: rest)
      simp only [commentRest_newline] at bound
      exact within.mono (by simp; omega) (by simp; omega)
  | case4 inComment offset rest notComment inductionHypothesis =>
      have within := inductionHypothesis (prefix_drop_of_cons (prefix_drop_of_cons start))
      simp only [Bool.not_eq_true] at notComment
      subst notComment
      refine .cons (by simp) (by simp) (startsCode_backslash start) ?_
      exact within.mono (by simp) (by simp; omega)
  | case5 offset rest inductionHypothesis =>
      have within := inductionHypothesis
        (prefix_drop_of_cons (prefix_drop_of_cons (prefix_drop_of_cons start)))
      have bound := commentRest_cons_le true '\\' ('\r' :: '\n' :: rest)
      have nextBound := commentRest_cons_le true '\r' ('\n' :: rest)
      simp only [commentRest_newline] at nextBound
      exact within.mono (by simp; omega) (by simp; omega)
  | case6 inComment offset rest notComment inductionHypothesis =>
      have within := inductionHypothesis
        (prefix_drop_of_cons (prefix_drop_of_cons (prefix_drop_of_cons start)))
      simp only [Bool.not_eq_true] at notComment
      subst notComment
      refine .cons (by simp) (by simp) (startsCode_backslash start) ?_
      exact within.mono (by simp) (by simp; omega)
  | case7 offset =>
      have bound := commentRest_cons_le true '\\' []
      exact .nil (by simpa using bound)
  | case8 inComment offset notComment =>
      simp only [Bool.not_eq_true] at notComment
      subst notComment
      exact .cons (by simp) (by simp) (startsCode_backslash start) (.nil (by simp))
  | case9 inComment offset rest inductionHypothesis =>
      have within := inductionHypothesis (prefix_drop_of_cons start)
      have bound := commentRest_cons_le true '#' rest
      have smaller := commentRest_le_true inComment ('#' :: rest)
      exact within.mono (by omega) (by simp; omega)
  | case10 inComment offset first rest _ _ _ _ _ inductionHypothesis =>
      have within := inductionHypothesis (prefix_drop_of_cons start)
      have bound := commentRest_cons_le inComment first rest
      exact within.mono (by omega) (by simp; omega)

/-! ## Statements and joined lines -/

theorem prefix_slice (text : Text) (span : Span) :
    span.slice text <+: text.drop span.start :=
  List.take_prefix _ _

theorem add_length_slice_le
    (text : Text)
    {start stop : Nat}
    (ordered : start ≤ stop) :
    start + (Span.slice ⟨start, stop⟩ text).length ≤ stop := by
  simp only [Span.slice, List.length_take]
  omega

theorem map_span_joinNodes (text : Text) (span : Span) :
    (joinNodes text span).map (·.span) = lineJoins false span.start (span.slice text) := by
  simp [joinNodes, Function.comp_def]

theorem spansWithin_joinNodes
    (text : Text)
    {start stop : Nat}
    (ordered : start ≤ stop) :
    SpansWithin text start stop ((joinNodes text ⟨start, stop⟩).map (·.span)) := by
  rw [map_span_joinNodes]
  have within := spansWithin_lineJoins text false start _ (prefix_slice text ⟨start, stop⟩)
  exact within.mono (by simp) (add_length_slice_le text ordered)

/-- No joined line stands in a comment at the start of a text. -/
theorem spansWithin_joinNodes_zero
    (text : Text)
    {stop : Nat}
    (afterComment : commentLength text ≤ stop) :
    SpansWithin text (commentLength text) stop ((joinNodes text ⟨0, stop⟩).map (·.span)) := by
  cases text with
  | nil => exact spansWithin_joinNodes [] (Nat.zero_le stop)
  | cons first rest =>
      by_cases comment : first = '#'
      · subst comment
        have length : commentLength ('#' :: rest) = 1 + commentRest true rest := by
          simp [commentLength, commentRest, Nat.add_comm]
        have taken : commentRest true (rest.take (stop - 1)) = commentRest true rest := by
          simp only [commentRest, ↓reduceIte] at length ⊢
          rw [← List.take_takeWhile, List.length_take]
          omega
        have joins : lineJoins false 0 (Span.slice ⟨0, stop⟩ ('#' :: rest)) =
            lineJoins true 1 (rest.take (stop - 1)) := by
          obtain ⟨before, rfl⟩ : ∃ before, stop = before + 1 := ⟨stop - 1, by omega⟩
          simp [Span.slice, lineJoins]
        rw [map_span_joinNodes, joins]
        have within := spansWithin_lineJoins ('#' :: rest) true 1 (rest.take (stop - 1))
          (List.take_prefix _ _)
        rw [taken] at within
        exact within.mono (by omega) (by simp; omega)
      · have noComment : commentLength (first :: rest) = 0 := by
          simp [commentLength, comment]
        rw [noComment]
        exact spansWithin_joinNodes _ (Nat.zero_le stop)

/-- Statements that stand in order still do with the joined lines between them. -/
theorem spansWithin_withJoins
    {text : Text}
    {offset lower : Nat}
    {nodes : List Node}
    (within : SpansWithin text lower text.length (nodes.map (·.span)))
    (joins : ∀ stop, lower ≤ stop →
      SpansWithin text lower stop ((joinNodes text ⟨offset, stop⟩).map (·.span))) :
    SpansWithin text lower text.length ((withJoins text offset nodes).map (·.span)) := by
  induction nodes generalizing offset lower with
  | nil => exact joins text.length within.le
  | cons node nodes inductionHypothesis =>
      cases within with
      | cons startBound spanBound starts rest =>
          simp only [withJoins, List.map_append, List.map_cons]
          refine (joins node.span.start startBound).append ?_
          refine .cons (le_refl _) spanBound starts (inductionHypothesis rest ?_)
          intro stop stopBound
          exact spansWithin_joinNodes text stopBound

/-- What holds of some statements and of joined lines holds of the statements with the joined lines
between them. -/
theorem of_mem_withJoins
    {good : Node → Prop}
    {text : Text}
    {offset : Nat}
    {nodes : List Node}
    (joinsGood : ∀ span, ∀ join ∈ joinNodes text span, good join)
    (allGood : ∀ node ∈ nodes, good node)
    {node : Node}
    (member : node ∈ withJoins text offset nodes) :
    good node := by
  induction nodes generalizing offset with
  | nil => exact joinsGood _ node member
  | cons head tail inductionHypothesis =>
      rcases List.mem_append.mp member with joined | later
      · exact joinsGood _ node joined
      · rcases List.mem_cons.mp later with rfl | later
        · exact allGood _ List.mem_cons_self
        · refine inductionHypothesis ?_ later
          exact fun other inTail => allGood other (List.mem_cons_of_mem _ inTail)

theorem isSound_of_mem_withJoins
    {text : Text}
    {offset : Nat}
    {nodes : List Node}
    (sound : ∀ node ∈ nodes, node.form.IsSound text node.span)
    {node : Node}
    (member : node ∈ withJoins text offset nodes) :
    node.form.IsSound text node.span := by
  refine of_mem_withJoins ?_ sound member
  intro span join joined
  obtain ⟨_, _, rfl⟩ := List.mem_map.mp joined
  trivial

/-- Statements of a text that stand in order after a comment at its beginning, with sound
forms. -/
structure Lays (text : Text) (nodes : List Node) : Prop where
  spans : SpansWithin text (commentLength text) text.length (nodes.map (·.span))
  forms : ∀ node ∈ nodes, node.form.IsSound text node.span

/-- What a text is analysed into. -/
theorem exists_nodes_of_parse
    {text : Text}
    {source : ParsedSource}
    (parsed : ParsedSource.parse text = .ok source) :
    ∃ nodes, source = .ofNodes text nodes ∧ Lays text nodes := by
  unfold ParsedSource.parse at parsed
  split at parsed
  next nodes statements =>
    cases parsed
    obtain ⟨spans, forms⟩ := spansWithin_parseStatements statements
    refine ⟨_, rfl, ?_, ?_⟩
    · exact spansWithin_withJoins spans fun stop => spansWithin_joinNodes_zero text
    · exact fun node => isSound_of_mem_withJoins forms
  next => cases parsed

end Inliner
