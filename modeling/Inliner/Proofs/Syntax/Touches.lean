import Inliner.Proofs.Syntax.Keeps

/-!
# Statements start with a token that is read

A statement does not succeed without reading a token, so it covers the token that it starts with.
Neither does it start with a semicolon or at the end of a line or of the text: where one of these
comes next, an operand fails, and everything that has to start with an operand fails with it.
-/

namespace Inliner.Syntax

open Inliner.Syntax.Parser

variable {α β : Type} {text : Text} {lower : Nat} {self : Grammar}

/-! ## Parsers that read a token -/

/-- The parser reads a token before it succeeds. -/
def Touches {α : Type} (text : Text) (lower : Nat) (parser : Parser α) : Prop :=
  ∀ cursor result after,
    cursor.Within text lower → parser cursor = .ok (result, after) →
      (Lasting.touched text lower).holds after

@[grind ←]
theorem touches_bind_of_first
    {parser : Parser α}
    {next : α → Parser β}
    (first : Touches text lower parser)
    (second : ∀ value, Keeps (.touched text lower) (next value)) :
    Touches text lower (parser >>= next) := by
  intro cursor result after held succeeded
  obtain ⟨value, between, firstSucceeded, secondSucceeded⟩ := bind_eq_ok succeeded
  exact second value between result after
    (first cursor value between held firstSucceeded) secondSucceeded

@[grind ←]
theorem touches_bind_of_second
    {parser : Parser α}
    {next : α → Parser β}
    (first : Keeps (.within text lower) parser)
    (second : ∀ value, Touches text lower (next value)) :
    Touches text lower (parser >>= next) := by
  intro cursor result after held succeeded
  obtain ⟨value, between, firstSucceeded, secondSucceeded⟩ := bind_eq_ok succeeded
  exact second value between result after
    (first cursor value between held firstSucceeded) secondSucceeded

@[grind ←]
theorem touches_peek_bind
    {expected : Expected}
    {next : Lexeme → Parser β}
    (rest : ∀ lexeme, (Lasting.touched text lower).holds lexeme.after →
      Touches text lower (next lexeme)) :
    Touches text lower (peek expected >>= next) := by
  intro cursor result after held succeeded
  obtain ⟨lexeme, between, peeked, nextSucceeded⟩ := bind_eq_ok succeeded
  have there := (Lasting.within text lower).peek held peeked
  obtain ⟨rfl, _⟩ := peek_eq_ok peeked
  have before := (Lasting.within text lower).before expected cursor held
  exact rest _ (Lasting.touched_after expected cursor before) between result after there
    nextSucceeded

@[grind ←]
theorem touches_accept
    {lexeme : Lexeme}
    (there : (Lasting.touched text lower).holds lexeme.after) :
    Touches text lower (accept lexeme) := by
  rintro cursor result after _ succeeded
  cases succeeded
  exact there

@[grind ←]
theorem touches_reject (lexeme : Lexeme) : Touches text lower (reject lexeme : Parser α) := by
  rintro cursor result after _ succeeded
  cases succeeded

@[grind ←]
theorem touches_orElse
    {first second : Parser α}
    (firstTouches : Touches text lower first)
    (secondTouches : Touches text lower second) :
    Touches text lower (orElse first second) := by
  intro cursor result after held succeeded
  rcases orElse_eq_ok succeeded with succeededFirst | succeededSecond
  · exact firstTouches cursor result after held succeededFirst
  · exact secondTouches cursor result after held succeededSecond

/-! ## Expressions and targets -/

@[grind ←]
theorem touches_atom
    (inner : KeepsAll (.touched text lower) self)
    (mode : Mode) :
    Touches text lower (atom self mode) := by
  unfold atom
  apply touches_peek_bind
  intro first read
  split <;> grind

@[grind ←]
theorem touches_operand
    (inner : KeepsAll (.touched text lower) self)
    (mode : Mode) :
    Touches text lower (operand self mode) := by
  unfold operand
  refine touches_bind_of_second (keeps_leaders mode) fun starred => ?_
  apply touches_peek_bind
  intro first read
  refine touches_bind_of_first (touches_atom inner mode) fun head => ?_
  grind

theorem touches_headOperand
    (inner : KeepsAll (.touched text lower) self)
    (mode : Mode) :
    Touches text lower (headOperand self mode) := by
  unfold headOperand
  apply touches_peek_bind
  intro first read
  split <;> grind

theorem touches_expression
    (inner : KeepsAll (.touched text lower) self)
    (mode : Mode) :
    Touches text lower (expression self mode) := by
  unfold expression
  exact touches_bind_of_first (touches_headOperand inner mode) fun first => by grind

@[grind ←]
theorem touches_assignable
    (inner : KeepsAll (.touched text lower) self)
    (mode : Mode) :
    Touches text lower (assignable self mode) := by
  unfold assignable
  grind

theorem touches_target
    (inner : KeepsAll (.touched text lower) self)
    (mode : Mode) :
    Touches text lower (target self mode) := by
  unfold target bracketTarget
  apply touches_peek_bind
  intro first read
  split <;> grind

/-- A grammar all of whose rules move on, and whose expressions and targets read a token. -/
structure Reads (text : Text) (lower : Nat) (rules : Grammar) : Prop where
  within : KeepsAll (.within text lower) rules
  touched : KeepsAll (.touched text lower) rules
  expression : ∀ mode, Touches text lower (rules (.expression mode))
  target : ∀ mode, Touches text lower (rules (.target mode))

theorem reads_grammar (text : Text) (lower depth : Nat) : Reads text lower (grammar depth) where
  within := keepsAll_grammar _ depth
  touched := keepsAll_grammar _ depth
  expression mode := by
    cases depth with
    | zero =>
        rintro cursor result after _ succeeded
        cases succeeded
    | succ depth => exact touches_expression (keepsAll_grammar _ depth) mode
  target mode := by
    cases depth with
    | zero =>
        rintro cursor result after _ succeeded
        cases succeeded
    | succ depth => exact touches_target (keepsAll_grammar _ depth) mode

/-! ## Statements -/

@[grind ←]
theorem touches_targets (reads : Reads text lower self) (mode : Mode) :
    Touches text lower (targets self mode) := by
  have inner := reads.touched
  unfold targets
  refine touches_bind_of_first (reads.target mode) fun first => ?_
  grind

@[grind ←]
theorem touches_expressions (reads : Reads text lower self) (mode : Mode) :
    Touches text lower (expressions self mode) := by
  have inner := reads.touched
  unfold expressions expressionsUntil
  refine touches_bind_of_first (reads.expression mode) fun first => ?_
  grind

@[grind ←]
theorem touches_wholeStatement
    {parser : Parser α}
    (parserTouches : Touches text lower parser) :
    Touches text lower (wholeStatement parser) := by
  unfold wholeStatement
  exact touches_bind_of_first parserTouches fun result => by grind

@[grind ←]
theorem touches_assignment (reads : Reads text lower self) :
    Touches text lower (assignment self) := by
  have inner := reads.touched
  unfold assignment
  refine touches_bind_of_first (touches_targets reads _) fun left => ?_
  grind

@[grind ←]
theorem touches_expressionStatement (reads : Reads text lower self) :
    Touches text lower (expressionStatement self) := by
  have inner := reads.touched
  unfold expressionStatement
  grind

theorem touches_simpleStatement (reads : Reads text lower self) :
    Touches text lower (simpleStatement self) := by
  have inner := reads.touched
  unfold simpleStatement
  apply touches_peek_bind
  intro first read
  split <;> grind

theorem touches_decoratedDefinition (reads : Reads text lower self) :
    Touches text lower (decoratedDefinition self) := by
  have outer := reads.within
  have inner := reads.touched
  unfold decoratedDefinition
  refine touches_bind_of_second (keeps_collect ?_) fun decorators => ?_
  · grind
  · grind

theorem touches_of_compoundStatement?
    (reads : Reads text lower self)
    {first : Lexeme}
    {parser : Parser (Form × Tree)}
    (there : (Lasting.touched text lower).holds first.after)
    (compound : compoundStatement? self first = some parser) :
    Touches text lower parser := by
  have inner := reads.touched
  have decorated := touches_decoratedDefinition reads
  unfold compoundStatement? at compound
  extract_lets other definition at compound
  have otherTouches :
      ∀ parser, Keeps (.touched text lower) parser → Touches text lower (other parser) := by
    intro parser parserKeeps
    exact touches_bind_of_first (touches_accept there) fun _ => by grind
  have definitionTouches :
      ∀ parser, Touches text lower parser → Touches text lower (definition parser) := by
    intro parser parserTouches
    exact touches_bind_of_first parserTouches fun _ => by grind
  clear_value other definition
  split at compound <;> grind

/-! ## Places where no statement starts -/

/-- The token ends a statement, or has no width. -/
def Token.EndsStatement (token : Token) : Prop :=
  token = .symbol ";" ∨ (∃ layout, token = .layout layout) ∨ token = .endOfText

/-- No operand can start at the place. -/
def Cursor.Blocked (cursor : Cursor) : Prop :=
  (Mode.statement.operand.lexeme cursor).token.EndsStatement

/-- The parser fails where no operand can start. -/
def Rejects {α : Type} (parser : Parser α) : Prop :=
  ∀ cursor result after, cursor.Blocked → parser cursor ≠ .ok (result, after)

/-- Looking at the token does not help where no operand can start. -/
theorem blocked_of_peek
    {cursor after : Cursor}
    {lexeme : Lexeme}
    (blocked : cursor.Blocked)
    (peeked : peek Mode.statement.operand cursor = .ok (lexeme, after)) :
    lexeme.token.EndsStatement ∧ after.Blocked := by
  obtain ⟨rfl, ⟨_, rfl⟩ | ⟨notLayout, rfl⟩⟩ := peek_eq_ok peeked
  · exact ⟨blocked, blocked⟩
  · refine ⟨blocked, ?_⟩
    have textual := lexeme_isTextual_of_ne_layout notLayout
    rcases blocked with semicolon | ⟨layout, isLayout⟩ | ended
    · rw [textual.token] at semicolon
      obtain ⟨rest, found⟩ := exists_of_tokenAt_semicolon semicolon
      exact .inl (by rw [lexeme_semicolon _ found])
    · exact absurd isLayout (notLayout layout)
    · rw [textual.token] at ended
      exact .inr (lexeme_of_rest_eq_nil _ (eq_nil_of_tokenAt_endOfText ended))

theorem rejects_bind_of_first
    {parser : Parser α}
    {next : α → Parser β}
    (first : Rejects parser) :
    Rejects (parser >>= next) := by
  intro cursor result after blocked succeeded
  obtain ⟨value, between, firstSucceeded, _⟩ := bind_eq_ok succeeded
  exact first cursor value between blocked firstSucceeded

theorem rejects_peek_bind
    {next : Lexeme → Parser β}
    (rest : ∀ lexeme, lexeme.token.EndsStatement → Rejects (next lexeme)) :
    Rejects (peek Mode.statement.operand >>= next) := by
  intro cursor result after blocked succeeded
  obtain ⟨lexeme, between, peeked, nextSucceeded⟩ := bind_eq_ok succeeded
  obtain ⟨ends, stillBlocked⟩ := blocked_of_peek blocked peeked
  exact rest lexeme ends between result after stillBlocked nextSucceeded

theorem rejects_reject (lexeme : Lexeme) : Rejects (reject lexeme : Parser α) := by
  rintro cursor result after _ succeeded
  cases succeeded

theorem rejects_orElse
    {first second : Parser α}
    (firstRejects : Rejects first)
    (secondRejects : Rejects second) :
    Rejects (orElse first second) := by
  intro cursor result after blocked succeeded
  rcases orElse_eq_ok succeeded with succeededFirst | succeededSecond
  · exact firstRejects cursor result after blocked succeededFirst
  · exact secondRejects cursor result after blocked succeededSecond

theorem rejects_atom : Rejects (atom self .statement) := by
  unfold atom
  apply rejects_peek_bind
  rintro first (ends | ⟨layout, ends⟩ | ends)
  all_goals
    simp only [ends]
    exact rejects_reject first

/-- Signs, stars and `await` are not found where no operand can start. -/
theorem blocked_of_leaders
    {cursor after : Cursor}
    {starred : Bool}
    (blocked : cursor.Blocked)
    (succeeded : leaders .statement cursor = .ok (starred, after)) :
    after.Blocked := by
  unfold leaders loop at succeeded
  obtain ⟨rest, start, remainingRead, succeeded⟩ := bind_eq_ok succeeded
  cases remainingRead
  rw [iterate] at succeeded
  obtain ⟨verdict, between, stepped, succeeded⟩ := bind_eq_ok succeeded
  obtain ⟨first, looked, peeked, stepped⟩ := bind_eq_ok stepped
  obtain ⟨ends, stillBlocked⟩ := blocked_of_peek blocked peeked
  rcases ends with ends | ⟨layout, ends⟩ | ends
  all_goals
    simp only [ends] at stepped
    cases stepped
    cases succeeded
    exact stillBlocked

theorem rejects_operand : Rejects (operand self .statement) := by
  unfold operand
  intro cursor result after blocked succeeded
  obtain ⟨starred, between, led, rest⟩ := bind_eq_ok succeeded
  have stillBlocked := blocked_of_leaders blocked led
  refine rejects_peek_bind (fun first ends => ?_) between result after stillBlocked rest
  exact rejects_bind_of_first rejects_atom

theorem rejects_headOperand : Rejects (headOperand self .statement) := by
  unfold headOperand
  apply rejects_peek_bind
  rintro first (ends | ⟨layout, ends⟩ | ends)
  all_goals
    simp only [ends]
    exact rejects_operand

theorem rejects_assignable : Rejects (assignable self .statement) := by
  unfold assignable
  apply rejects_peek_bind
  rintro first ends
  dsimp only
  split
  · exact rejects_bind_of_first (rejects_reject first)
  · exact rejects_bind_of_first rejects_atom

theorem rejects_target : Rejects (target self .statement) := by
  unfold target
  apply rejects_peek_bind
  rintro first (ends | ⟨layout, ends⟩ | ends)
  all_goals
    simp only [ends]
    exact rejects_assignable

theorem rejects_grammar_expression (depth : Nat) :
    Rejects (grammar depth (.expression .statement)) := by
  cases depth with
  | zero =>
      rintro cursor result after _ succeeded
      cases succeeded
  | succ depth => exact rejects_bind_of_first rejects_headOperand

theorem rejects_grammar_target (depth : Nat) : Rejects (grammar depth (.target .statement)) := by
  cases depth with
  | zero =>
      rintro cursor result after _ succeeded
      cases succeeded
  | succ depth => exact rejects_target

theorem rejects_expressionStatement (depth : Nat) :
    Rejects (expressionStatement (grammar depth)) := by
  have assignmentRejects : Rejects (assignment (grammar depth)) :=
    rejects_bind_of_first (rejects_bind_of_first (rejects_grammar_target depth))
  have expressionsReject : Rejects (expressions (grammar depth) .statement) :=
    rejects_bind_of_first (rejects_grammar_expression depth)
  unfold expressionStatement
  apply rejects_peek_bind
  rintro first (ends | ⟨layout, ends⟩ | ends)
  all_goals
    simp only [ends, reduceCtorEq, ↓reduceIte]
    exact rejects_orElse (rejects_bind_of_first assignmentRejects)
      (rejects_bind_of_first (rejects_bind_of_first expressionsReject))

/-- No simple statement starts with a semicolon or with a token of no width. -/
theorem rejects_simpleStatement (depth : Nat) : Rejects (simpleStatement (grammar depth)) := by
  unfold simpleStatement
  apply rejects_peek_bind
  rintro first (ends | ⟨layout, ends⟩ | ends)
  all_goals
    simp only [ends]
    exact rejects_expressionStatement depth

end Inliner.Syntax
