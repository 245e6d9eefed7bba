import Inliner.Proofs.Syntax.Lexemes
import Inliner.Syntax.Program

/-!
# What every rule of the grammar keeps

A rule only ever moves on from token to token, so it keeps every property of places that lasts.
There is one lemma for each way to build a parser, and one for each rule of the grammar, which
refers to the lemmas for its parts; `keepsAll_grammar` ties the knot.
-/

namespace Inliner.Syntax

open Inliner.Syntax.Parser

/-- The parser succeeds only at places where a lasting property still holds. -/
def Keeps {α : Type} (lasting : Lasting) (parser : Parser α) : Prop :=
  ∀ cursor result after,
    lasting.holds cursor → parser cursor = .ok (result, after) → lasting.holds after

variable {α β σ : Type} {lasting : Lasting}

/-! ## Ways to build a parser -/

/-- A sequence of two parsers succeeds where the second one does after the first. -/
theorem bind_eq_ok
    {parser : Parser α}
    {next : α → Parser β}
    {cursor after : Cursor}
    {result : β}
    (succeeded : (parser >>= next) cursor = .ok (result, after)) :
    ∃ value between, parser cursor = .ok (value, between) ∧
      next value between = .ok (result, after) := by
  change (parser cursor >>= fun pair => next pair.1 pair.2) = _ at succeeded
  cases first : parser cursor with
  | error offset =>
      rw [first] at succeeded
      cases succeeded
  | ok pair =>
      rw [first] at succeeded
      exact ⟨pair.1, pair.2, rfl, succeeded⟩

/-- Of two alternatives one succeeds where both together do. -/
theorem orElse_eq_ok
    {first second : Parser α}
    {cursor after : Cursor}
    {result : α}
    (succeeded : orElse first second cursor = .ok (result, after)) :
    first cursor = .ok (result, after) ∨ second cursor = .ok (result, after) := by
  unfold orElse at succeeded
  split at succeeded
  next succeededFirst =>
    cases succeeded
    exact .inl succeededFirst
  next =>
    split at succeeded
    next succeededSecond =>
      cases succeeded
      exact .inr succeededSecond
    next => cases succeeded

@[grind ←]
theorem keeps_pure (value : α) : Keeps lasting (pure value) := by
  rintro cursor result after held succeeded
  cases succeeded
  exact held

@[grind ←]
theorem keeps_bind
    {parser : Parser α}
    {next : α → Parser β}
    (first : Keeps lasting parser)
    (second : ∀ value, Keeps lasting (next value)) :
    Keeps lasting (parser >>= next) := by
  intro cursor result after held succeeded
  obtain ⟨value, between, firstSucceeded, secondSucceeded⟩ := bind_eq_ok succeeded
  exact second value between result after
    (first cursor value between held firstSucceeded) secondSucceeded

@[grind ←]
theorem keeps_get_bind
    {next : Cursor → Parser β}
    (rest : ∀ cursor, lasting.holds cursor → Keeps lasting (next cursor)) :
    Keeps lasting (get >>= next) := by
  intro cursor result after held succeeded
  exact rest cursor held cursor result after held succeeded

@[grind ←]
theorem keeps_set
    {place : Cursor}
    (there : lasting.holds place) :
    Keeps lasting (set place : Parser PUnit) := by
  rintro cursor result after _ succeeded
  cases succeeded
  exact there

/-- Looking at a token leads to its place, unless it has no width. -/
theorem peek_eq_ok
    {expected : Expected}
    {cursor after : Cursor}
    {lexeme : Lexeme}
    (succeeded : peek expected cursor = .ok (lexeme, after)) :
    lexeme = expected.lexeme cursor ∧
      ((∃ layout, lexeme.token = .layout layout) ∧ after = cursor ∨
        (∀ layout, lexeme.token ≠ .layout layout) ∧ after = lexeme.before) := by
  unfold peek at succeeded
  dsimp only at succeeded
  split at succeeded
  next layout found =>
    cases succeeded
    exact ⟨rfl, .inl ⟨⟨layout, found⟩, rfl⟩⟩
  next notLayout =>
    cases succeeded
    exact ⟨rfl, .inr ⟨notLayout, rfl⟩⟩

/-- A lasting property still holds after looking at a token. -/
theorem Lasting.peek
    {expected : Expected}
    {cursor after : Cursor}
    {lexeme : Lexeme}
    (held : lasting.holds cursor)
    (succeeded : peek expected cursor = .ok (lexeme, after)) :
    lasting.holds after := by
  obtain ⟨rfl, ⟨_, rfl⟩ | ⟨_, rfl⟩⟩ := peek_eq_ok succeeded
  · exact held
  · exact lasting.before expected cursor held

@[grind ←]
theorem keeps_peek_bind
    {expected : Expected}
    {next : Lexeme → Parser β}
    (rest : ∀ lexeme, lasting.holds lexeme.before → lasting.holds lexeme.after →
      Keeps lasting (next lexeme)) :
    Keeps lasting (peek expected >>= next) := by
  intro cursor result after held succeeded
  obtain ⟨lexeme, between, peeked, nextSucceeded⟩ := bind_eq_ok succeeded
  have there := lasting.peek held peeked
  obtain ⟨rfl, _⟩ := peek_eq_ok peeked
  exact rest _ (lasting.before expected cursor held) (lasting.after expected cursor held)
    between result after there nextSucceeded

@[grind ←]
theorem keeps_accept
    {lexeme : Lexeme}
    (there : lasting.holds lexeme.after) :
    Keeps lasting (accept lexeme) :=
  keeps_set there

theorem keeps_accept_bind
    {lexeme : Lexeme}
    {next : Unit → Parser β}
    (rest : ∀ result after, next () lexeme.after = .ok (result, after) → lasting.holds after) :
    Keeps lasting (accept lexeme >>= next) :=
  fun _ result after _ succeeded => rest result after succeeded

@[grind ←]
theorem keeps_failAt (offset : Nat) : Keeps lasting (failAt offset : Parser α) := by
  rintro cursor result after _ succeeded
  cases succeeded

@[grind ←]
theorem keeps_reject (lexeme : Lexeme) : Keeps lasting (reject lexeme : Parser α) :=
  keeps_failAt lexeme.start

@[grind ←]
theorem keeps_orElse
    {first second : Parser α}
    (firstKeeps : Keeps lasting first)
    (secondKeeps : Keeps lasting second) :
    Keeps lasting (orElse first second) := by
  intro cursor result after held succeeded
  rcases orElse_eq_ok succeeded with succeededFirst | succeededSecond
  · exact firstKeeps cursor result after held succeededFirst
  · exact secondKeeps cursor result after held succeededSecond

@[grind ←]
theorem keeps_acceptIf (expected : Expected) (token : Token) :
    Keeps lasting (acceptIf expected token) := by
  unfold acceptIf
  grind

@[grind ←]
theorem keeps_symbol? (expected : Expected) (text : String) :
    Keeps lasting (symbol? expected text) :=
  keeps_acceptIf expected _

@[grind ←]
theorem keeps_word? (expected : Expected) (text : String) :
    Keeps lasting (word? expected text) :=
  keeps_acceptIf expected _

@[grind ←]
theorem keeps_require (expected : Expected) (token : Token) :
    Keeps lasting (require expected token) := by
  unfold require
  grind

@[grind ←]
theorem keeps_symbol (expected : Expected) (text : String) :
    Keeps lasting (symbol expected text) :=
  keeps_require expected _

@[grind ←]
theorem keeps_keyword (expected : Expected) (text : String) :
    Keeps lasting (keyword expected text) :=
  keeps_require expected _

@[grind ←]
theorem keeps_identifier (expected : Expected) : Keeps lasting (identifier expected) := by
  unfold identifier
  grind

@[grind ←]
theorem keeps_remaining : Keeps lasting remaining := by
  unfold remaining
  grind

@[grind ←]
theorem keeps_lastStop : Keeps lasting lastStop := by
  unfold lastStop
  grind

@[grind ←]
theorem keeps_textFrom (lexeme : Lexeme) : Keeps lasting (textFrom lexeme) := by
  unfold textFrom
  grind

@[grind ←]
theorem keeps_statementStart : Keeps lasting statementStart := by
  unfold statementStart
  grind

theorem keeps_iterate
    {step : σ → Parser (σ ⊕ σ)}
    (stepKeeps : ∀ state, Keeps lasting (step state))
    (fuel : Nat)
    (state : σ) :
    Keeps lasting (iterate step fuel state) := by
  induction fuel generalizing state with
  | zero => exact keeps_pure state
  | succ fuel inductionHypothesis =>
      refine keeps_bind (stepKeeps state) ?_
      rintro (next | final)
      · exact inductionHypothesis next
      · exact keeps_pure final

@[grind ←]
theorem keeps_loop
    {state : σ}
    {step : σ → Parser (σ ⊕ σ)}
    (stepKeeps : ∀ state, Keeps lasting (step state)) :
    Keeps lasting (loop state step) := by
  unfold loop
  exact keeps_bind keeps_remaining fun rest => keeps_iterate stepKeeps _ state

@[grind ←]
theorem keeps_collect
    {step : Parser (Option Tree)}
    (stepKeeps : Keeps lasting step) :
    Keeps lasting (collect step) := by
  unfold collect
  grind

/-- Every rule of a grammar keeps a lasting property. -/
@[grind]
def KeepsAll (lasting : Lasting) (self : Grammar) : Prop :=
  ∀ goal, Keeps lasting (self goal)

variable {self : Grammar}

/-! ## String literals -/

@[grind →]
theorem two_le_length_of_take_two
    {text : Text}
    {first second : Char}
    (taken : text.take 2 = [first, second]) :
    2 ≤ text.length := by
  have length := congrArg List.length taken
  simp only [List.length_take, List.length_cons, List.length_nil] at length
  omega

/-- The content of a string literal does not reach beyond the end of the text. -/
@[grind →]
theorem contentLength_le
    {style : StringStyle}
    {skip read length : Nat}
    {filled : Bool}
    {text : Text}
    {stop : ContentEnd}
    (content : contentLength style skip filled read text = some (length, stop)) :
    length ≤ read + text.length := by
  fun_induction contentLength style skip filled read text <;> grind

@[grind ←]
theorem keeps_stringBody
    (inner : KeepsAll lasting self)
    (style : StringStyle) :
    Keeps lasting (stringBody self style) := by
  unfold stringBody
  grind

/-! ## Lists, targets and comprehensions -/

@[grind ←]
theorem keeps_moreElements
    (mode : Mode)
    (stops : List String)
    {element : Parser Tree}
    (elementKeeps : Keeps lasting element) :
    Keeps lasting (moreElements mode stops element) := by
  unfold moreElements
  grind

@[grind ←]
theorem keeps_expressionsUntil
    (inner : KeepsAll lasting self)
    (mode : Mode)
    (stops : List String) :
    Keeps lasting (expressionsUntil self mode stops) := by
  unfold expressionsUntil
  grind

@[grind ←]
theorem keeps_expressions
    (inner : KeepsAll lasting self)
    (mode : Mode) :
    Keeps lasting (expressions self mode) := by
  unfold expressions
  grind

@[grind ←]
theorem keeps_strictExpressions
    (inner : KeepsAll lasting self)
    (mode : Mode) :
    Keeps lasting (strictExpressions self mode) := by
  unfold strictExpressions
  grind

@[grind ←]
theorem keeps_yieldArgument
    (inner : KeepsAll lasting self)
    (mode : Mode) :
    Keeps lasting (yieldArgument self mode) := by
  unfold yieldArgument
  grind

@[grind ←]
theorem keeps_expressionsOrYield
    (inner : KeepsAll lasting self)
    (mode : Mode) :
    Keeps lasting (expressionsOrYield self mode) := by
  unfold expressionsOrYield
  grind

@[grind ←]
theorem keeps_targets
    (inner : KeepsAll lasting self)
    (mode : Mode) :
    Keeps lasting (targets self mode) := by
  unfold targets
  grind

@[grind ←]
theorem keeps_forClause
    (inner : KeepsAll lasting self)
    (mode : Mode) :
    Keeps lasting (forClause self mode) := by
  unfold forClause
  grind

@[grind ←]
theorem keeps_comprehensionClauses
    (inner : KeepsAll lasting self)
    (mode : Mode) :
    Keeps lasting (comprehensionClauses self mode) := by
  unfold comprehensionClauses
  grind

/-! ## Brackets -/

@[grind ←]
theorem keeps_element
    (inner : KeepsAll lasting self)
    (mode : Mode) :
    Keeps lasting (element self mode) := by
  unfold element
  grind

@[grind ←]
theorem keeps_listBody
    (inner : KeepsAll lasting self)
    (mode : Mode) :
    Keeps lasting (listBody self mode) := by
  unfold listBody
  grind

@[grind ←]
theorem keeps_parenthesesBody
    (inner : KeepsAll lasting self)
    (mode : Mode) :
    Keeps lasting (parenthesesBody self mode) := by
  unfold parenthesesBody
  grind

@[grind ←]
theorem keeps_entry
    (inner : KeepsAll lasting self)
    (mode : Mode) :
    Keeps lasting (entry self mode) := by
  unfold entry
  grind

@[grind ←]
theorem keeps_moreEntries
    (inner : KeepsAll lasting self)
    (mode : Mode) :
    Keeps lasting (moreEntries self mode) := by
  unfold moreEntries
  grind

@[grind ←]
theorem keeps_bracesBody
    (inner : KeepsAll lasting self)
    (mode : Mode) :
    Keeps lasting (bracesBody self mode) := by
  unfold bracesBody
  apply keeps_peek_bind
  intro first before after
  split
  · grind
  · grind
  · grind
  · refine keeps_bind (keeps_element inner mode) fun head => ?_
    apply keeps_peek_bind
    intro next nextBefore nextAfter
    extract_lets finish
    have finishKeeps : ∀ tree, Keeps lasting (finish tree) := by grind
    clear_value finish
    split <;> grind

@[grind ←]
theorem keeps_argument
    (inner : KeepsAll lasting self)
    (mode : Mode) :
    Keeps lasting (argument self mode) := by
  unfold argument
  grind

@[grind ←]
theorem keeps_argumentsBody
    (inner : KeepsAll lasting self)
    (mode : Mode) :
    Keeps lasting (argumentsBody self mode) := by
  unfold argumentsBody
  apply keeps_peek_bind
  intro next before after
  split
  · grind
  · grind
  · refine keeps_bind (keeps_argument inner mode) fun first => ?_
    apply keeps_peek_bind
    intro next nextBefore nextAfter
    extract_lets finish
    have finishKeeps : ∀ more, Keeps lasting (finish more) := by grind
    clear_value finish
    grind

@[grind ←]
theorem keeps_slicePart
    (inner : KeepsAll lasting self)
    (mode : Mode) :
    Keeps lasting (slicePart self mode) := by
  unfold slicePart
  grind

@[grind ←]
theorem keeps_index
    (inner : KeepsAll lasting self)
    (mode : Mode) :
    Keeps lasting (index self mode) := by
  unfold index
  grind

@[grind ←]
theorem keeps_indicesBody
    (inner : KeepsAll lasting self)
    (mode : Mode) :
    Keeps lasting (indicesBody self mode) := by
  unfold indicesBody
  grind

/-! ## Operands -/

@[grind ←]
theorem keeps_moreStrings
    (inner : KeepsAll lasting self)
    (mode : Mode) :
    Keeps lasting (moreStrings self mode) := by
  unfold moreStrings
  grind

@[grind ←]
theorem keeps_atom
    (inner : KeepsAll lasting self)
    (mode : Mode) :
    Keeps lasting (atom self mode) := by
  unfold atom
  grind

@[grind ←]
theorem keeps_trailers
    (inner : KeepsAll lasting self)
    (mode : Mode)
    (head : Tree) :
    Keeps lasting (trailers self mode head) := by
  unfold trailers
  grind

@[grind ←]
theorem keeps_leaders (mode : Mode) : Keeps lasting (leaders mode) := by
  unfold leaders
  grind

@[grind ←]
theorem keeps_operand
    (inner : KeepsAll lasting self)
    (mode : Mode) :
    Keeps lasting (operand self mode) := by
  unfold operand
  grind

@[grind ←]
theorem keeps_starredParameter
    (inner : KeepsAll lasting self)
    (mode : Mode) :
    Keeps lasting (starredParameter self mode) := by
  unfold starredParameter
  grind

@[grind ←]
theorem keeps_annotation
    (inner : KeepsAll lasting self)
    (mode : Mode) :
    Keeps lasting <| annotation self mode := by
  unfold annotation
  grind

@[grind ←]
theorem keeps_annotationWithRestrictions
    (inner : KeepsAll lasting self)
    (mode : Mode) :
    Keeps lasting <| restrictedAnnotation self mode := by
  unfold restrictedAnnotation
  grind

@[grind ←]
theorem keeps_defaultValue
    (inner : KeepsAll lasting self)
    (mode : Mode) :
    Keeps lasting (defaultValue self mode) := by
  unfold defaultValue
  grind

@[grind ←]
theorem keeps_parameter
    (inner : KeepsAll lasting self)
    (mode : Mode)
    (annotated : Bool) :
    Keeps lasting (parameter self mode annotated) := by
  unfold parameter
  apply keeps_peek_bind
  intro first before after
  extract_lets none annotationOf
  have annotationKeeps : Keeps lasting annotationOf := by grind
  clear_value annotationOf
  split <;> grind

@[grind ←]
theorem keeps_parameters
    (inner : KeepsAll lasting self)
    (mode : Mode)
    (annotated : Bool) :
    Keeps lasting (parameters self mode annotated) := by
  unfold parameters
  grind

@[grind ←]
theorem keeps_lambdaBody
    (inner : KeepsAll lasting self)
    (mode : Mode) :
    Keeps lasting (lambdaBody self mode) := by
  unfold lambdaBody
  grind

/-! ## Expressions, targets and replacement fields -/

@[grind ←]
theorem keeps_headOperand
    (inner : KeepsAll lasting self)
    (mode : Mode) :
    Keeps lasting (headOperand self mode) := by
  unfold headOperand
  grind

@[grind ←]
theorem keeps_continuation
    (inner : KeepsAll lasting self)
    (mode : Mode) :
    Keeps lasting (continuation self mode) := by
  unfold continuation
  grind

@[grind ←]
theorem keeps_expression
    (inner : KeepsAll lasting self)
    (mode : Mode) :
    Keeps lasting (expression self mode) := by
  unfold expression
  grind

@[grind ←]
theorem keeps_targetsBody
    (inner : KeepsAll lasting self)
    (mode : Mode)
    (closing : String) :
    Keeps lasting (targetsBody self mode closing) := by
  unfold targetsBody
  grind

@[grind ←]
theorem keeps_assignable
    (inner : KeepsAll lasting self)
    (mode : Mode) :
    Keeps lasting (assignable self mode) := by
  unfold assignable
  grind

@[grind ←]
theorem keeps_bracketTarget
    (inner : KeepsAll lasting self)
    (mode : Mode)
    {opening : Lexeme}
    (closing : String)
    (opened : lasting.holds opening.after) :
    Keeps lasting (bracketTarget self mode opening closing) := by
  unfold bracketTarget
  grind

@[grind ←]
theorem keeps_target
    (inner : KeepsAll lasting self)
    (mode : Mode) :
    Keeps lasting (target self mode) := by
  unfold target
  grind

@[grind →]
theorem succ_le_length_of_drop
    {text rest : Text}
    {count : Nat}
    {first : Char}
    (dropped : text.drop count = first :: rest) :
    count + 1 ≤ text.length := by
  have length := congrArg List.length dropped
  simp only [List.length_drop, List.length_cons] at length
  omega

@[grind ←]
theorem keeps_formatSpecification
    (inner : KeepsAll lasting self) :
    Keeps lasting (formatSpecification self) := by
  unfold formatSpecification
  grind

@[grind ←]
theorem keeps_replacementField
    (inner : KeepsAll lasting self) :
    Keeps lasting (replacementField self) := by
  unfold replacementField
  refine keeps_bind (keeps_expressionsOrYield inner _) fun value => ?_
  refine keeps_bind (keeps_symbol? _ _) fun _ => ?_
  apply keeps_peek_bind
  intro next before after
  extract_lets cursor marked
  have markedHolds : lasting.holds marked := by grind
  clear_value marked
  refine keeps_bind (keeps_set markedHolds) fun _ => ?_
  apply keeps_peek_bind
  intro next before after
  grind

/-! ## Patterns of `case` clauses -/

@[grind ←]
theorem keeps_imaginaryPart (mode : Mode) : Keeps lasting (imaginaryPart mode) := by
  unfold imaginaryPart
  grind

@[grind ←]
theorem keeps_casePatternsBody
    (mode : Mode)
    (closing : String)
    {part : Parser Tree}
    (partKeeps : Keeps lasting part) :
    Keeps lasting (casePatternsBody mode closing part) := by
  unfold casePatternsBody
  apply keeps_peek_bind
  intro next before after
  split
  · grind
  · exact keeps_bind partKeeps fun first => by grind

@[grind ←]
theorem keeps_starredCapture (mode : Mode) : Keeps lasting (starredCapture mode) := by
  unfold starredCapture
  grind

@[grind ←]
theorem keeps_namedPattern
    (inner : KeepsAll lasting self)
    (mode : Mode)
    (first : String) :
    Keeps lasting (namedPattern self mode first) := by
  unfold namedPattern
  grind

@[grind ←]
theorem keeps_closedPattern
    (inner : KeepsAll lasting self)
    (mode : Mode)
    {entry : Mode → Parser Tree}
    (entryKeeps : ∀ mode, Keeps lasting (entry mode)) :
    Keeps lasting (closedPattern self mode entry) := by
  unfold closedPattern
  grind

@[grind ←]
theorem keeps_entryPattern
    (inner : KeepsAll lasting self)
    (mode : Mode) :
    Keeps lasting (entryPattern self mode) := by
  unfold entryPattern
  grind

@[grind ←]
theorem keeps_casePattern
    (inner : KeepsAll lasting self)
    (mode : Mode) :
    Keeps lasting (casePattern self mode) := by
  unfold casePattern
  apply keeps_peek_bind
  intro first before after
  extract_lets pattern finish next
  have patternKeeps : Keeps lasting pattern :=
    keeps_closedPattern inner mode fun mode => keeps_entryPattern inner mode
  have finishKeeps : ∀ label, Keeps lasting (finish label) := by
    intro label
    refine keeps_bind patternKeeps fun head => ?_
    clear_value pattern
    refine keeps_bind (keeps_collect ?_) fun alternatives => ?_
    · grind
    · grind
  clear_value finish
  grind

/-! ## Imports -/

@[grind ←]
theorem keeps_dottedName
    (mode : Mode)
    {start : Lexeme}
    (there : lasting.holds start.after) :
    Keeps lasting (dottedName mode start) := by
  unfold dottedName
  split
  · refine keeps_bind (keeps_accept there) fun _ => ?_
    grind
  · grind

@[grind ←]
theorem keeps_importItem (mode : Mode) : Keeps lasting (importItem mode) := by
  unfold importItem
  apply keeps_peek_bind
  intro start startBefore startAfter
  grind

@[grind ←]
theorem keeps_importItems (mode : Mode) : Keeps lasting (importItems mode) := by
  unfold importItems
  refine keeps_bind (keeps_importItem mode) fun first => ?_
  refine keeps_bind (keeps_loop fun items => ?_) fun items => keeps_pure _
  grind

@[grind ←]
theorem keeps_importList : Keeps lasting importList := by
  unfold importList
  grind

@[grind ←]
theorem keeps_importStatement : Keeps lasting importStatement := by
  unfold importStatement
  grind

@[grind ←]
theorem keeps_leadingDots : Keeps lasting leadingDots := by
  unfold leadingDots
  grind

@[grind ←]
theorem keeps_fromStatement : Keeps lasting fromStatement := by
  unfold fromStatement
  apply keeps_peek_bind
  intro start startBefore startAfter
  refine keeps_bind keeps_leadingDots fun level => ?_
  apply keeps_peek_bind
  intro next nextBefore nextAfter
  extract_lets names
  have namesKeeps : ∀ path, Keeps lasting (names path) := by
    intro path
    refine keeps_bind (keeps_keyword _ _) fun _ => ?_
    apply keeps_peek_bind
    intro next nextBefore nextAfter
    grind
  clear_value names
  grind

@[grind ←]
theorem keeps_fromOrFutureStatement : Keeps lasting fromOrFutureStatement := by
  unfold fromOrFutureStatement
  grind

/-! ## Simple statements -/

@[grind ←]
theorem keeps_statementEnd : Keeps lasting statementEnd := by
  unfold statementEnd
  grind

@[grind ←]
theorem keeps_wholeStatement
    {parser : Parser α}
    (parserKeeps : Keeps lasting parser) :
    Keeps lasting (wholeStatement parser) := by
  unfold wholeStatement
  grind

@[grind ←]
theorem keeps_assignment
    (inner : KeepsAll lasting self) :
    Keeps lasting (assignment self) := by
  unfold assignment
  grind

@[grind ←]
theorem keeps_rightSide
    (inner : KeepsAll lasting self) :
    Keeps lasting (rightSide self) := by
  unfold rightSide
  grind

@[grind ←]
theorem keeps_expressionStatement
    (inner : KeepsAll lasting self) :
    Keeps lasting (expressionStatement self) := by
  unfold expressionStatement
  grind

@[grind ←]
theorem keeps_optionalExpressions
    (inner : KeepsAll lasting self)
    (stops : List String) :
    Keeps lasting (optionalExpressions self stops) := by
  unfold optionalExpressions
  grind

@[grind ←]
theorem keeps_printStatement
    (inner : KeepsAll lasting self) :
    Keeps lasting (printStatement self) := by
  unfold printStatement
  grind

@[grind ←]
theorem keeps_execStatement
    (inner : KeepsAll lasting self) :
    Keeps lasting (execStatement self) := by
  unfold execStatement
  grind

@[grind ←]
theorem keeps_typeAlias
    (inner : KeepsAll lasting self) :
    Keeps lasting (typeAlias self) := by
  unfold typeAlias
  grind

@[grind ←]
theorem keeps_raiseStatement
    (inner : KeepsAll lasting self) :
    Keeps lasting (raiseStatement self) := by
  unfold raiseStatement
  grind

@[grind ←]
theorem keeps_nameList : Keeps lasting nameList := by
  unfold nameList
  grind

@[grind ←]
theorem keeps_simpleStatement
    (inner : KeepsAll lasting self) :
    Keeps lasting (simpleStatement self) := by
  unfold simpleStatement
  grind

@[grind ←]
theorem keeps_simpleLine
    (inner : KeepsAll lasting self) :
    Keeps lasting (simpleLine self) := by
  unfold simpleLine
  refine keeps_bind (keeps_loop fun nodes => ?_) fun nodes => keeps_pure _
  apply keeps_peek_bind
  intro first before after
  refine keeps_bind (keeps_simpleStatement inner) fun parsed => ?_
  refine keeps_bind keeps_lastStop fun stop => ?_
  grind

/-! ## Compound statements -/

@[grind ←]
theorem keeps_colonBlock
    (inner : KeepsAll lasting self) :
    Keeps lasting (colonBlock self) := by
  unfold colonBlock
  grind

@[grind ←]
theorem keeps_plainClause?
    (inner : KeepsAll lasting self)
    (word : String) :
    Keeps lasting (plainClause? self word) := by
  unfold plainClause?
  grind

@[grind ←]
theorem keeps_ifStatement
    (inner : KeepsAll lasting self) :
    Keeps lasting (ifStatement self) := by
  unfold ifStatement
  apply keeps_peek_bind
  intro start before after
  refine keeps_bind (inner _) fun condition => ?_
  refine keeps_bind (keeps_textFrom start) fun text => ?_
  refine keeps_bind (keeps_colonBlock inner) fun consequence => ?_
  refine keeps_bind (keeps_collect ?_) fun alternatives => ?_
  · grind
  · grind

@[grind ←]
theorem keeps_forStatement
    (inner : KeepsAll lasting self) :
    Keeps lasting (forStatement self) := by
  unfold forStatement
  grind

@[grind ←]
theorem keeps_whileStatement
    (inner : KeepsAll lasting self) :
    Keeps lasting (whileStatement self) := by
  unfold whileStatement
  grind

@[grind ←]
theorem keeps_withStatement
    (inner : KeepsAll lasting self) :
    Keeps lasting (withStatement self) := by
  unfold withStatement
  grind

@[grind ←]
theorem keeps_caught
    (inner : KeepsAll lasting self)
    (group : Bool) :
    Keeps lasting (caught self group) := by
  unfold caught
  grind

@[grind ←]
theorem keeps_handler?
    (inner : KeepsAll lasting self)
    (expected : Expected)
    (group : Bool) :
    Keeps lasting (handler? self expected group) := by
  unfold handler?
  apply keeps_peek_bind
  intro next before after
  extract_lets starred
  split
  next found =>
    apply keeps_accept_bind
    intro result final succeeded
    have bodyKeeps :
        Keeps lasting (do
          let kind ← caught self group
          return some (Tree.seq kind (← colonBlock self))) := by
      grind
    split at succeeded
    next grouped =>
      -- The star of a group follows the word directly, so there is a character to move over.
      have star : 1 ≤ next.after.rest.length := by grind
      exact bodyKeeps _ result final (lasting.consume _ 1 after star) succeeded
    next => exact bodyKeeps _ result final after succeeded
  next => exact keeps_pure _

@[grind ←]
theorem keeps_tryStatement
    (inner : KeepsAll lasting self) :
    Keeps lasting (tryStatement self) := by
  unfold tryStatement
  refine keeps_bind (keeps_colonBlock inner) fun body => ?_
  apply keeps_peek_bind
  intro next before after
  split
  · grind
  · refine keeps_bind (keeps_handler? inner _ _) fun first => ?_
    split
    · exact keeps_reject next
    · refine keeps_bind (keeps_collect ?_) fun more => ?_
      · grind
      · grind

@[grind ←]
theorem keeps_typeParameters
    (inner : KeepsAll lasting self) :
    Keeps lasting (typeParameters self) := by
  unfold typeParameters
  refine keeps_bind (keeps_symbol? _ _) fun bracketed => ?_
  split
  · refine keeps_bind (keeps_annotationWithRestrictions inner _) fun first => ?_
    refine keeps_bind (keeps_collect ?_) fun more => ?_
    · grind
    · grind
  · exact keeps_pure _

@[grind ←]
theorem keeps_functionDefinition
    (inner : KeepsAll lasting self) :
    Keeps lasting (functionDefinition self) := by
  unfold functionDefinition
  refine keeps_bind (keeps_identifier _) fun name => ?_
  refine keeps_bind (keeps_typeParameters inner) fun types => ?_
  refine keeps_bind (keeps_symbol _ _) fun _ => ?_
  apply keeps_peek_bind
  intro next before after
  extract_lets finish
  have finishKeeps : ∀ bound, Keeps lasting (finish bound) := by
    intro bound
    refine keeps_bind (keeps_symbol _ _) fun _ => ?_
    grind
  clear_value finish
  grind

@[grind ←]
theorem keeps_classDefinition
    (inner : KeepsAll lasting self) :
    Keeps lasting (classDefinition self) := by
  unfold classDefinition
  grind

@[grind ←]
theorem keeps_decoratedDefinition
    (inner : KeepsAll lasting self) :
    Keeps lasting (decoratedDefinition self) := by
  unfold decoratedDefinition
  grind

@[grind ←]
theorem keeps_caseClause
    (inner : KeepsAll lasting self) :
    Keeps lasting (caseClause self) := by
  unfold caseClause
  grind

@[grind ←]
theorem keeps_matchStatement
    (inner : KeepsAll lasting self) :
    Keeps lasting (matchStatement self) := by
  unfold matchStatement
  refine keeps_bind (keeps_expressions inner _) fun subjects => ?_
  refine keeps_bind (keeps_symbol _ _) fun _ => ?_
  apply keeps_peek_bind
  intro next before after
  split
  · grind
  · refine keeps_bind (keeps_accept after) fun _ => ?_
    refine keeps_bind (keeps_collect ?_) fun clauses => ?_
    · grind
    · grind
  · grind

theorem keeps_of_compoundStatement?
    (inner : KeepsAll lasting self)
    {first : Lexeme}
    {parser : Parser (Form × Tree)}
    (there : lasting.holds first.after)
    (compound : compoundStatement? self first = some parser) :
    Keeps lasting parser := by
  unfold compoundStatement? at compound
  extract_lets other definition at compound
  have otherKeeps : ∀ parser, Keeps lasting parser → Keeps lasting (other parser) := by
    intro parser parserKeeps
    exact keeps_bind (keeps_accept there) fun _ => by grind
  have definitionKeeps : ∀ parser, Keeps lasting parser → Keeps lasting (definition parser) := by
    grind
  clear_value other definition
  split at compound <;> grind

@[grind ←]
theorem keeps_statement
    (inner : KeepsAll lasting self)
    {first : Lexeme}
    (there : lasting.holds first.after) :
    Keeps lasting (statement self first) := by
  unfold statement
  split
  next parser compound =>
    have parserKeeps := keeps_of_compoundStatement? inner there compound
    grind
  next =>
    split
    · refine keeps_orElse ?_ (keeps_simpleLine inner)
      refine keeps_bind (keeps_bind (keeps_accept there) fun _ => ?_) fun _ => ?_
      · grind
      · grind
    · exact keeps_simpleLine inner

@[grind ←]
theorem keeps_block
    (inner : KeepsAll lasting self) :
    Keeps lasting (block self) := by
  unfold block
  apply keeps_peek_bind
  intro first before after
  split
  · grind
  · refine keeps_bind (keeps_accept after) fun _ => ?_
    refine keeps_bind (keeps_collect ?_) fun _ => keeps_pure _
    grind
  · grind

/-! ## The whole grammar -/

theorem keepsAll_rule (inner : KeepsAll lasting self) : KeepsAll lasting (rule self) := by
  intro goal
  cases goal with
  | expression mode => exact keeps_expression inner mode
  | target mode => exact keeps_target inner mode
  | field => exact keeps_replacementField inner
  | rightSide => exact keeps_rightSide inner
  | casePattern mode => exact keeps_casePattern inner mode
  | block => exact keeps_block inner

/-- The rules keep every lasting property, however deep they are nested. -/
theorem keepsAll_grammar (lasting : Lasting) (depth : Nat) : KeepsAll lasting (grammar depth) := by
  induction depth with
  | zero =>
      rintro goal cursor result after _ succeeded
      cases succeeded
  | succ depth inductionHypothesis => exact keepsAll_rule inductionHypothesis

end Inliner.Syntax
