import Inliner.Proofs.Syntax.Forms

/-!
# The statements of a program

The statements of a program cover stretches of its text one after the other, and none of these
starts with white space or a semicolon.  The forms of the statements fit these stretches.
-/

namespace Inliner.Syntax

open Inliner.Syntax.Parser

/-! ## Stretches of a text in order -/

/-- Something stands at the offset that is neither white space nor a semicolon. -/
def StartsCode (text : Text) (offset : Nat) : Prop :=
  ∃ first, text[offset]? = some first ∧ isTrivia first = false ∧ first ≠ ';'

namespace StartsCode

variable {text : Text} {offset : Nat}

theorem of_getElem?
    {first : Char}
    (starts : StartsCode text offset)
    (found : text[offset]? = some first) :
    isTrivia first = false ∧ first ≠ ';' := by
  obtain ⟨other, otherFound, isCode⟩ := starts
  obtain rfl := Option.some.inj (otherFound.symm.trans found)
  exact isCode

theorem lt_length (starts : StartsCode text offset) : offset < text.length := by
  obtain ⟨first, found, _⟩ := starts
  exact (List.getElem?_eq_some_iff.mp found).1

end StartsCode

/-- Spans of a text one after the other between two offsets, each of which starts with code. -/
inductive SpansWithin (text : Text) : Nat → Nat → List Span → Prop where
  | nil {lower upper : Nat} :
      lower ≤ upper → SpansWithin text lower upper []
  | cons {lower upper : Nat} {span : Span} {spans : List Span} :
      lower ≤ span.start → span.start ≤ span.stop → StartsCode text span.start →
        SpansWithin text span.stop upper spans → SpansWithin text lower upper (span :: spans)

namespace SpansWithin

variable {text : Text} {lower middle upper : Nat} {spans more : List Span}

theorem le (within : SpansWithin text lower upper spans) : lower ≤ upper := by
  induction within with
  | nil bound => exact bound
  | cons startBound spanBound _ _ inductionHypothesis => omega

theorem append
    (within : SpansWithin text lower middle spans)
    (moreWithin : SpansWithin text middle upper more) :
    SpansWithin text lower upper (spans ++ more) := by
  induction within with
  | nil bound =>
      cases moreWithin with
      | nil moreBound => exact .nil (by omega)
      | cons startBound spanBound starts rest => exact .cons (by omega) spanBound starts rest
  | cons startBound spanBound starts _ inductionHypothesis =>
      exact .cons startBound spanBound starts (inductionHypothesis moreWithin)

theorem of_mem
    {span : Span}
    (within : SpansWithin text lower upper spans)
    (member : span ∈ spans) :
    lower ≤ span.start ∧ StartsCode text span.start := by
  induction within with
  | nil _ => simp at member
  | cons startBound spanBound starts _ inductionHypothesis =>
      rcases List.mem_cons.mp member with rfl | later
      · exact ⟨startBound, starts⟩
      · obtain ⟨bound, laterStarts⟩ := inductionHypothesis later
        exact ⟨by omega, laterStarts⟩

theorem mono
    {lower' upper' : Nat}
    (within : SpansWithin text lower upper spans)
    (lowerBound : lower' ≤ lower)
    (upperBound : upper ≤ upper') :
    SpansWithin text lower' upper' spans := by
  have before : SpansWithin text lower' lower [] := .nil lowerBound
  have after : SpansWithin text upper upper' [] := .nil upperBound
  simpa using (before.append within).append after

end SpansWithin

/-! ## Spans of statements -/

variable {text : Text} {lower : Nat} {self : Grammar}

/-- The token at hand starts with code unless it ends a statement. -/
theorem startsCode_of_textual
    {quotes : Bool}
    {lexeme : Lexeme}
    (within : lexeme.before.Within text lower)
    (textual : lexeme.IsTextual quotes)
    (notEnd : ¬ lexeme.token.EndsStatement) :
    StartsCode text lexeme.start := by
  cases ahead : lexeme.before.rest with
  | nil =>
      refine absurd (Or.inr (Or.inr ?_)) notEnd
      rw [textual.token, ahead]
      rfl
  | cons first rest =>
      have head : lexeme.before.rest.head? = some first := by
        rw [ahead]
        rfl
      refine ⟨first, ?_, textual.atToken first head, ?_⟩
      · rw [within.rest_eq, List.head?_drop] at head
        exact head
      · rintro rfl
        refine notEnd (Or.inl ?_)
        rw [textual.token, ahead, tokenAt_semicolon]

/-- The statements read up to a place: they stand in order before it, and their forms fit
them. -/
structure Covers (text : Text) (lower : Nat) (nodes : List Node) (cursor : Cursor) : Prop where
  within : cursor.Within text lower
  spans : SpansWithin text lower cursor.offset (nodes.map (·.span))
  forms : ∀ node ∈ nodes, node.form.IsSound text node.span

/-- One more statement is read from the token at hand on, and then what separates it from the
next one. -/
theorem Covers.push
    {start : Nat}
    {nodes : List Node}
    {form : Form}
    {tree : Tree}
    {before read after : Cursor}
    (covers : Covers text lower nodes before)
    (startBound : before.offset ≤ start)
    (starts : StartsCode text start)
    (touched : (Lasting.touched text start).holds read)
    (sound : form.IsSound text ⟨start, read.lastStop⟩)
    (moved : after.Within text read.offset) :
    Covers text lower (nodes ++ [⟨form, tree, ⟨start, read.lastStop⟩⟩]) after where
  within := moved.mono (by have := covers.within.lower_le; have := touched.1.lower_le; omega)
  spans := by
    rw [List.map_append]
    have stopBound := touched.1.lastStop_le
    exact covers.spans.append <|
      .cons startBound touched.2 starts (.nil (stopBound.trans moved.lower_le))
  forms := by
    intro node member
    rcases List.mem_append.mp member with earlier | latest
    · exact covers.forms node earlier
    · rw [List.mem_singleton.mp latest]
      exact sound

theorem covers_nil
    {cursor : Cursor}
    (within : cursor.Within text lower) :
    Covers text lower [] cursor :=
  ⟨within, .nil within.lower_le, by simp⟩

/-- A simple statement that succeeds starts at a token with a width. -/
theorem textual_of_simpleStatement
    {depth : Nat}
    {cursor place after : Cursor}
    {first : Lexeme}
    {result : Form × Tree}
    (peeked : peek Mode.statement.operand cursor = .ok (first, place))
    (succeeded : simpleStatement (grammar depth) place = .ok (result, after)) :
    place = first.before ∧ first.IsTextual true ∧ ¬ first.token.EndsStatement := by
  have unblocked : ¬ cursor.Blocked := fun blocked =>
    rejects_simpleStatement depth place result after (blocked_of_peek blocked peeked).2 succeeded
  obtain ⟨rfl, ⟨layout, _⟩ | ⟨notLayout, rfl⟩⟩ := peek_eq_ok peeked
  · exact absurd (.inr (.inl layout)) unblocked
  · exact ⟨rfl, lexeme_isTextual_of_ne_layout notLayout, unblocked⟩

theorem covers_simpleLine
    {depth : Nat}
    {cursor after : Cursor}
    {nodes : List Node}
    (within : cursor.Within text lower)
    (succeeded : simpleLine (grammar depth) cursor = .ok (nodes, after)) :
    Covers text lower nodes after := by
  obtain ⟨reversed, final, looped, succeeded⟩ := bind_eq_ok succeeded
  cases succeeded
  refine loop_induction (fun nodes cursor => Covers text lower nodes.reverse cursor) ?_
    (covers_nil within) looped
  intro nodes cursor outcome after covers stepped
  obtain ⟨first, place, peeked, afterFirst⟩ := bind_eq_ok stepped
  obtain ⟨⟨form, tree⟩, read, parsed, afterParsed⟩ := bind_eq_ok afterFirst
  obtain ⟨stop, stopped, stopRead, separated⟩ := bind_eq_ok afterParsed
  cases stopRead
  obtain ⟨rfl, textual, notEnd⟩ := textual_of_simpleStatement peeked parsed
  have fromCursor := covers.within.fromHere
  have firstWithin := (Lasting.within text cursor.offset).peek fromCursor peeked
  have touched := touches_simpleStatement (reads_grammar text first.start depth) _ _ _
    firstWithin.fromHere parsed
  have moved : (Lasting.within text read.offset).holds after := by
    refine (?_ : Keeps _ _) read outcome after touched.1.fromHere separated
    grind
  have outcomeNodes : outcome.elim id id = ⟨form, tree, ⟨first.start, read.lastStop⟩⟩ :: nodes := by
    refine (?_ : Yields (fun outcome => outcome.elim id id = _) _) read outcome after separated
    grind
  rw [outcomeNodes, List.reverse_cons]
  exact covers.push firstWithin.lower_le (startsCode_of_textual firstWithin textual notEnd) touched
    (isSound_simpleStatement textual firstWithin.fromHere parsed) moved

theorem not_endsStatement_of_compoundStatement?
    {first : Lexeme}
    {parser : Parser (Form × Tree)}
    (compound : compoundStatement? self first = some parser) :
    ¬ first.token.EndsStatement := by
  rintro (semicolon | ⟨layout, isLayout⟩ | ended)
  · simp [compoundStatement?, semicolon] at compound
  · simp [compoundStatement?, isLayout] at compound
  · simp [compoundStatement?, ended] at compound

/-- A compound statement covers the text from its first token on. -/
theorem covers_compound
    {expected : Expected}
    {cursor after : Cursor}
    {form : Form}
    {tree : Tree}
    {parser : Parser (Form × Tree)}
    (within : (expected.lexeme cursor).before.Within text lower)
    (notEnd : ¬ (expected.lexeme cursor).token.EndsStatement)
    (touches : Touches text (expected.lexeme cursor).start parser)
    (yields : Yields IsNoImport parser)
    (succeeded : parser (expected.lexeme cursor).before = .ok ((form, tree), after)) :
    Covers text lower
      [⟨form, tree, ⟨(expected.lexeme cursor).start, after.lastStop⟩⟩] after := by
  have textual := lexeme_isTextual_of_ne_layout fun layout isLayout =>
    notEnd (.inr (.inl ⟨layout, isLayout⟩))
  have starts := startsCode_of_textual within textual notEnd
  have touched := touches _ _ _ within.fromHere succeeded
  have sound := Form.isSound_of_isNoImport (yields _ _ _ succeeded) text
  exact (covers_nil within).push (le_refl _) starts touched (sound _) touched.1.fromHere

theorem covers_statement
    {depth : Nat}
    {expected : Expected}
    {cursor after : Cursor}
    {nodes : List Node}
    (within : (expected.lexeme cursor).before.Within text lower)
    (succeeded :
      statement (grammar depth) (expected.lexeme cursor) (expected.lexeme cursor).before =
        .ok (nodes, after)) :
    Covers text lower nodes after := by
  have reads := reads_grammar text (expected.lexeme cursor).start depth
  have afterFirst := Lasting.touched_after expected cursor within.fromHere
  unfold statement at succeeded
  cases compound : compoundStatement? (grammar depth) (expected.lexeme cursor) with
  | some parser =>
      simp only [compound] at succeeded
      obtain ⟨⟨form, tree⟩, read, parsed, finished⟩ := bind_eq_ok succeeded
      cases finished
      exact covers_compound within (not_endsStatement_of_compoundStatement? compound)
        (touches_of_compoundStatement? reads afterFirst compound)
        (yields_of_compoundStatement? compound) parsed
  | none =>
      simp only [compound] at succeeded
      split at succeeded
      next isMatch =>
        rcases orElse_eq_ok succeeded with matched | line
        · obtain ⟨⟨form, tree⟩, read, parsed, finished⟩ := bind_eq_ok matched
          cases finished
          have inner := reads.touched
          refine covers_compound within ?_ (touches_bind_of_first (touches_accept afterFirst) ?_)
            (yields_bind fun _ => by grind) parsed
          · simp [Token.EndsStatement, isMatch]
          · grind
        · exact covers_simpleLine within line
      next => exact covers_simpleLine within succeeded

theorem covers_statementsFrom
    {depth fuel : Nat}
    {cursor : Cursor}
    {nodes : List Node}
    (within : (Expected.lexeme { quote := true } cursor).before.Within text lower)
    (succeeded : statementsFrom (grammar depth) fuel cursor = .ok nodes) :
    SpansWithin text lower text.length (nodes.map (·.span)) ∧
      ∀ node ∈ nodes, node.form.IsSound text node.span := by
  induction fuel generalizing lower cursor nodes with
  | zero =>
      cases succeeded
      exact ⟨.nil (within.lower_le.trans within.offset_le), by simp⟩
  | succ fuel inductionHypothesis =>
      unfold statementsFrom at succeeded
      dsimp only at succeeded
      split at succeeded
      next =>
        cases succeeded
        exact ⟨.nil (within.lower_le.trans within.offset_le), by simp⟩
      next =>
        split at succeeded
        next => cases succeeded
        next first after parsed =>
          have covers := covers_statement within parsed
          have next := (Lasting.within text after.offset).before { quote := true } after
            covers.within.fromHere
          split at succeeded
          next => cases succeeded
          next more moreParsed =>
            cases succeeded
            obtain ⟨moreSpans, moreForms⟩ := inductionHypothesis next moreParsed
            refine ⟨?_, ?_⟩
            · rw [List.map_append]
              exact covers.spans.append moreSpans
            · intro node member
              rcases List.mem_append.mp member with earlier | later
              · exact covers.forms node earlier
              · exact moreForms node later

/-- The statements of a program stand in order after a comment at its beginning. -/
theorem spansWithin_parseStatements
    {nodes : List Node}
    (parsed : parseStatements text = .ok nodes) :
    SpansWithin text (commentLength text) text.length (nodes.map (·.span)) ∧
      ∀ node ∈ nodes, node.form.IsSound text node.span := by
  have start : (Cursor.ofText text).Within text 0 :=
    ⟨rfl, Nat.zero_le _, le_refl _, le_refl _⟩
  have first := (Lasting.within text 0).before { quote := true } _ start
  exact covers_statementsFrom { first with lower_le := commentLength_le_start text } parsed

/-! ## What holds of every statement -/

variable {good : Form × Tree → Prop}

theorem yields_forall_simpleLine (simple : Yields good (simpleStatement self)) :
    Yields (fun nodes => ∀ node ∈ nodes, good (node.form, node.tree)) (simpleLine self) := by
  refine yields_bind_of_first
    (yields_loop (fun nodes => ∀ node ∈ nodes, good (node.form, node.tree)) (by simp) ?_) ?_
  · intro nodes allGood
    refine yields_bind fun first => yields_bind_of_first simple fun result isGood => ?_
    refine yields_bind fun stop => ?_
    have more :
        ∀ node ∈ ⟨result.1, result.2, ⟨first.start, stop⟩⟩ :: nodes,
          good (node.form, node.tree) :=
      List.forall_mem_cons.mpr ⟨isGood, allGood⟩
    grind
  · intro nodes allGood
    apply yields_pure
    intro node member
    exact allGood node (List.mem_reverse.mp member)

theorem yields_forall_statement
    {first : Lexeme}
    (simple : Yields good (simpleStatement self))
    (compound : ∀ parser, compoundStatement? self first = some parser → Yields good parser)
    (matching : Yields (fun tree => good (.other, tree)) (matchStatement self)) :
    Yields (fun nodes => ∀ node ∈ nodes, good (node.form, node.tree)) (statement self first) := by
  have single
      {parser : Parser (Form × Tree)}
      (yields : Yields good parser) :
      Yields (fun nodes : List Node => ∀ node ∈ nodes, good (node.form, node.tree)) (do
        let result ← parser
        return [⟨result.1, result.2, ⟨first.start, ← lastStop⟩⟩]) := by
    refine yields_bind_of_first yields fun result isGood => ?_
    refine yields_bind fun stop => yields_pure ?_
    simpa using isGood
  unfold statement
  dsimp only
  split
  next parser isCompound => exact single (compound parser isCompound)
  next =>
    split
    · refine yields_orElse (single (yields_bind fun _ => ?_)) (yields_forall_simpleLine simple)
      exact yields_bind_of_first matching fun tree isGood => yields_pure isGood
    · exact yields_forall_simpleLine simple

theorem forall_of_statementsFrom
    {holds : Node → Prop}
    {fuel : Nat}
    {cursor : Cursor}
    {nodes : List Node}
    (each : ∀ first, Yields (fun nodes => ∀ node ∈ nodes, holds node) (statement self first))
    (succeeded : statementsFrom self fuel cursor = .ok nodes) :
    ∀ node ∈ nodes, holds node := by
  induction fuel generalizing cursor nodes with
  | zero =>
      cases succeeded
      simp
  | succ fuel inductionHypothesis =>
      unfold statementsFrom at succeeded
      dsimp only at succeeded
      split at succeeded
      next =>
        cases succeeded
        simp
      next =>
        split at succeeded
        next => cases succeeded
        next first after parsed =>
          split at succeeded
          next => cases succeeded
          next more moreParsed =>
            cases succeeded
            intro node member
            rcases List.mem_append.mp member with earlier | later
            · exact each _ _ first after parsed node earlier
            · exact inductionHypothesis moreParsed node later

end Inliner.Syntax
