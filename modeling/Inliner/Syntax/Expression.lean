import Inliner.Syntax.Literal

/-!
Expressions. Only names survive in the resulting trees, so operators need no precedence: an
expression is a chain of operands, and what matters is which operands may follow which operators.
-/

namespace Inliner.Syntax

open Inliner.Syntax.Parser

/-! ## Words and symbols with a meaning in expressions -/

def constants : List String := ["None", "True", "False"]

/-- Operators between two operands that are not whole expressions. -/
def operators : List String :=
  ["+", "-", "*", "@", "/", "%", "//", "**", "|", "&", "^", "<<", ">>",
    "<", "<=", "==", "!=", ">=", ">", "<>"]

def signs : List String := ["+", "-", "~"]

/-- Words that go on with an expression after an operand. -/
def connectives : List String := ["if", "else", "and", "or", "in", "is", "not", "as", "for"]

def Token.startsExpression : Token → Bool
  | .word _ | .number | .quote _ => true
  | .symbol text => text ∈ ["(", "[", "\x7b", "+", "-", "~", "*", "..."]
  | _ => false

def Token.isAwaitable : Token → Bool
  | .word text => text ∉ connectives
  | token => token.startsExpression

section

variable (self : Grammar)

/-! ## Lists of expressions -/

/-- Further elements of a list, each after a comma, up to an optional last comma. The words in
`stops` end the list after a comma. -/
def moreElements
    (mode : Mode) (stops : List String) (element : Parser Tree) : Parser Tree :=
  collect do
    if ← symbol? mode.after "," then
      let next ← peek mode.operandOrEnd
      match next.token with
      | .word text => if text ∈ stops then return none else return some (← element)
      | token => if token.startsExpression then return some (← element) else return none
    else
      return none

/-- One or more expressions with commas between them, and possibly a last comma. The words in
`stops` end them after a comma. -/
def expressionsUntil (mode : Mode) (stops : List String) : Parser Tree := do
  let first ← self (.expression mode)
  let more ← moreElements mode stops (self (.expression mode))
  return .seq first more

def expressions (mode : Mode) : Parser Tree :=
  expressionsUntil self mode []

/-- One or more expressions with commas between them and none after the last. -/
def strictExpressions (mode : Mode) : Parser Tree := do
  let first ← self (.expression mode)
  let more ← collect do
    if ← symbol? mode.after "," then
      return some (← self (.expression mode))
    else
      return none
  return .seq first more

def yieldArgument (mode : Mode) : Parser Tree := do
  let next ← peek mode.operandOrEnd
  if next.token = .word "from" then
    accept next
    self (.expression mode)
  else if next.token.startsExpression then
    expressions self mode
  else
    return .empty

def expressionsOrYield (mode : Mode) : Parser Tree := do
  let first ← peek mode.operand
  if first.token = .word "yield" then
    accept first
    yieldArgument self mode
  else
    expressions self mode

/-! ## Targets -/

/-- One or more targets with commas between them, and possibly a last comma. The word `in` ends
them after a comma. -/
def targets (mode : Mode) : Parser Tree := do
  let first ← self (.target mode)
  let next ← peek mode.after
  if next.token = .symbol "," then
    let more ← moreElements mode ["in"] (self (.target mode))
    return .pattern (.seq first more)
  else
    return first

/-! ## Comprehensions -/

/-- Whether the word at hand starts a `for` clause: `for`, or `async` before it. -/
def startsForClause (mode : Mode) (lexeme : Lexeme) : Bool :=
  match lexeme.token with
  | .word "for" => true
  | .word "async" => (mode.inside.lexeme lexeme.after).token == .word "for"
  | _ => false

def forClause (mode : Mode) : Parser Tree := do
  let _ ← word? mode.after "async"
  keyword mode.inside "for"
  let target ← targets self mode.unfinished
  keyword mode.inside "in"
  let sourceMode := { mode with conditional := false }
  let sources ← expressionsUntil self sourceMode ["for", "if", "async"]
  return .binding .comprehension target sources

def comprehensionClauses (mode : Mode) : Parser Tree := do
  let first ← forClause self mode
  let more ← collect do
    let next ← peek mode.after
    if startsForClause mode next then
      return some (← forClause self mode)
    else if next.token = .word "if" then
      accept next
      return some (← self (.expression { mode with conditional := false }))
    else
      return none
  return .seq first more

/-! ## Brackets -/

/-- An element of a list, tuple or set: an expression, a starred expression or `yield`. -/
def element (mode : Mode) : Parser Tree := do
  let first ← peek mode.operand
  match first.token with
  | .symbol "*" =>
      accept first
      self (.expression mode)
  | .word "yield" =>
      accept first
      yieldArgument self mode
  | _ => self (.expression mode)

def listBody (mode : Mode) : Parser Tree := do
  let next ← peek mode.operandOrEnd
  if next.token = .symbol "]" then
    accept next
    return .empty
  let first ← element self mode
  let next ← peek mode.after
  let more ←
    if startsForClause mode next then
      comprehensionClauses self mode
    else
      moreElements mode [] (element self mode)
  symbol mode.after "]"
  return .seq first more

def parenthesesBody (mode : Mode) : Parser Tree := do
  let next ← peek mode.operandOrEnd
  if next.token = .symbol ")" then
    accept next
    return .empty
  let starred :=
    next.token == .symbol "*" &&
      match (mode.operand.lexeme next.after).token with
      | .word _ => false
      | _ => true
  let first ← element self mode
  let next ← peek mode.after
  if startsForClause mode next then
    let clauses ← comprehensionClauses self mode
    symbol mode.after ")"
    return .seq first clauses
  else if next.token = .symbol "," then
    let more ← moreElements mode [] (element self mode)
    symbol mode.after ")"
    return .seq first more
  else if starred then
    reject next
  else
    symbol mode.after ")"
    return .seq first .empty

def entry (mode : Mode) : Parser Tree := do
  let first ← peek mode.operand
  if first.token = .symbol "**" then
    accept first
    self (.expression mode)
  else
    let key ← self (.expression mode.unfinished)
    symbol mode.inside ":"
    let value ← self (.expression mode)
    return .seq key value

def moreEntries (mode : Mode) : Parser Tree :=
  collect do
    if ← symbol? mode.after "," then
      let next ← peek mode.operandOrEnd
      if next.token.startsExpression || next.token = .symbol "**" then
        return some (← entry self mode)
      else
        return none
    else
      return none

def bracesBody (mode : Mode) : Parser Tree := do
  let first ← peek mode.operandOrEnd
  match first.token with
  | .symbol "\x7d" =>
      accept first
      return .empty
  | .symbol "," =>
      accept first
      symbol mode.after "\x7d"
      return .empty
  | .symbol "**" =>
      let entries ← entry self mode
      let more ← moreEntries self mode
      symbol mode.after "\x7d"
      return .seq entries more
  | _ =>
      let head ← element self mode
      let next ← peek mode.after
      let tree ←
        if next.token = .symbol ":" then do
          accept next
          let value ← self (.expression mode)
          let next ← peek mode.after
          let more ←
            if startsForClause mode next then
              comprehensionClauses self mode
            else
              moreEntries self mode
          pure (Tree.seq head (.seq value more))
        else do
          let more ←
            if startsForClause mode next then
              comprehensionClauses self mode
            else
              moreElements mode [] (element self mode)
          pure (Tree.seq head more)
      symbol mode.after "\x7d"
      return tree

/-! ## Calls and subscripts -/

/-- Whether an argument is labelled: a word that is no operator or constant, then `=`. -/
def isLabelled (mode : Mode) (lexeme : Lexeme) : Bool :=
  match lexeme.token with
  | .word text =>
      text ∉ "lambda" :: "not" :: constants &&
        (mode.after.lexeme lexeme.after).token == .symbol "="
  | _ => false

def argument (mode : Mode) : Parser Tree := do
  let first ← peek mode.operand
  match first.token with
  | .symbol "*" | .symbol "**" =>
      accept first
      self (.expression mode)
  | .word label =>
      if isLabelled mode first then
        accept first
        symbol mode.after "="
        return .keyword label (← self (.expression mode))
      else
        self (.expression mode)
  | _ => self (.expression mode)

def argumentsBody (mode : Mode) : Parser Tree := do
  let next ← peek mode.operandOrEnd
  match next.token with
  | .symbol ")" =>
      accept next
      return .empty
  | .symbol "," =>
      accept next
      symbol mode.after ")"
      return .empty
  | _ =>
      let first ← argument self mode
      let next ← peek mode.after
      let more ←
        if startsForClause mode next then
          comprehensionClauses self mode
        else
          collect do
            if ← symbol? mode.after "," then
              let next ← peek mode.operandOrEnd
              if next.token.startsExpression || next.token = .symbol "**" then
                return some (← argument self mode)
              else
                return none
            else
              return none
      symbol mode.after ")"
      return .seq first more

def slicePart (mode : Mode) : Parser Tree := do
  let next ← peek mode.operandOrEnd
  if next.token.startsExpression then self (.expression mode) else return .empty

/-- An index or a slice. In an annotation, also the name of a parameter specification. -/
def index (mode : Mode) : Parser Tree := do
  let first ← peek mode.operand
  if mode.annotation && first.token = .symbol "**" then
    accept first
    return .name (← identifier mode.inside)
  let lower ← if first.token = .symbol ":" then pure Tree.empty else self (.expression mode)
  if ← symbol? mode.after ":" then
    let upper ← slicePart self mode
    let step ← if ← symbol? mode.after ":" then slicePart self mode else pure Tree.empty
    return .seq lower (.seq upper step)
  else
    return lower

def indicesBody (mode : Mode) : Parser Tree := do
  let first ← index self mode
  let more ← collect do
    if ← symbol? mode.after "," then
      let next ← peek mode.operandOrEnd
      if next.token.startsExpression || next.token ∈ [.symbol ":", .symbol "**"] then
        return some (← index self mode)
      else
        return none
    else
      return none
  symbol mode.after "]"
  return .seq first more

/-! ## Operands -/

/-- The string literals that follow a string literal directly. -/
def moreStrings (mode : Mode) : Parser Tree :=
  collect do
    let next ← peek { mode.after with quote := true }
    match next.token with
    | .quote style =>
        accept next
        return some (← stringBody self style)
    | _ => return none

/-- The smallest operands: names, literals and everything in brackets. -/
def atom (mode : Mode) : Parser Tree := do
  let first ← peek mode.operand
  let inner := mode.bracketed
  match first.token with
  | .word text =>
      accept first
      return if text ∈ constants then .empty else .name text
  | .number =>
      accept first
      return .empty
  | .quote style =>
      accept first
      let head ← stringBody self style
      let more ← moreStrings self mode
      return .seq head more
  | .symbol "(" =>
      accept first
      parenthesesBody self inner
  | .symbol "[" =>
      accept first
      listBody self inner
  | .symbol "\x7b" =>
      accept first
      bracesBody self inner
  | .symbol "..." =>
      accept first
      return .empty
  | _ => reject first

/-- Attributes, calls and subscripts after an operand. The result tells whether an attribute or
a subscript is among them. -/
def trailers (mode : Mode) (head : Tree) : Parser (Tree × Bool) :=
  loop (head, false) fun (tree, accessed) => do
    let next ← peek mode.after
    let inner := mode.bracketed
    match next.token with
    | .symbol "." =>
        accept next
        let field ← identifier mode.inside
        return .inl (.attribute tree field, true)
    | .symbol "[" =>
        accept next
        let indices ← indicesBody self { inner with annotation := mode.annotation }
        return .inl (.subscript tree indices, true)
    | .symbol "(" =>
        accept next
        let arguments ← argumentsBody self inner
        return .inl (.seq tree arguments, accessed)
    | _ => return .inr (tree, accessed)

/-- Signs, stars and `await` before an operand. The result tells whether a star comes last. -/
def leaders (mode : Mode) : Parser Bool :=
  loop false fun starred => do
    let first ← peek mode.operand
    if starred then
      return .inr true
    match first.token with
    | .symbol text =>
        if text ∈ signs then
          accept first
          return .inl false
        else if text = "*" then
          accept first
          return .inl true
        else
          return .inr false
    | .word "await" =>
        let next := mode.operandOrEnd.lexeme first.after
        if next.token.isAwaitable then
          accept first
          return .inl false
        else
          return .inr false
    | _ => return .inr false

/-- An operand with everything that belongs to it. A star applies to a name, an attribute or a
subscript. -/
def operand (mode : Mode) : Parser Tree := do
  let starred ← leaders mode
  let first ← peek mode.operand
  let head ← atom self mode
  let (tree, accessed) ← trailers self mode head
  let starrable :=
    match head with
    | .name _ => true
    | _ => accessed
  if starred && !starrable then reject first else return tree

/-! ## Parameters and annotations -/

/-- The starred or plain part of a parameter, after its stars. -/
def starredParameter (mode : Mode) : Parser Tree := do
  let first ← peek mode.operand
  match first.token with
  | .word text =>
      accept first
      let (tree, _) ← trailers self mode (.name text)
      match tree with
      | .name _ | .attribute _ _ | .subscript _ _ => return .pattern tree
      | _ => reject first
  | _ => reject first

def annotation (mode : Mode) : Parser Tree := do
  let first ← peek mode.operand
  if first.token = .symbol "**" then
    accept first
    return .name (← identifier mode.inside)
  else
    self (.expression { mode with annotation := true })

def restrictedAnnotation (mode : Mode) : Parser Tree := do
  let first ← annotation self mode
  let more ← collect do
    if ← symbol? mode.after ":" then
      return some (← annotation self mode)
    else
      return none
  return .seq first more

def defaultValue (mode : Mode) : Parser Tree := do
  if ← symbol? mode.after "=" then self (.expression mode) else return .empty

/-- A parameter. Parameters of an anonymous function have no annotations. -/
def parameter (mode : Mode) (annotated : Bool) : Parser Tree := do
  let first ← peek mode.operand
  let annotationOf : Parser Tree := do
    if annotated then
      if ← symbol? mode.after ":" then
        return ← restrictedAnnotation self mode
    return .empty
  match first.token with
  | .symbol "*" =>
      accept first
      let next ← peek mode.operandOrEnd
      match next.token with
      | .word _ =>
          let binder ← starredParameter self mode
          return .parameter binder (← annotationOf)
      | _ => return .parameter .empty .empty
  | .symbol "**" =>
      accept first
      let binder ← starredParameter self mode
      return .parameter binder (← annotationOf)
  | .symbol "/" =>
      accept first
      return .parameter .empty .empty
  | .symbol "(" =>
      let binder ← self (.target mode)
      match binder with
      | .pattern _ => return .parameter binder (← defaultValue self mode)
      | _ => reject first
  | .word text =>
      accept first
      let annotated ← annotationOf
      return .parameter (.name text) (.seq annotated (← defaultValue self mode))
  | _ => reject first

def Token.startsParameter : Token → Bool
  | .word _ => true
  | .symbol text => text ∈ ["*", "**", "/", "("]
  | _ => false

def parameters (mode : Mode) (annotated : Bool) : Parser Tree := do
  let first ← parameter self mode annotated
  let more ← collect do
    if ← symbol? mode.after "," then
      let next ← peek mode.operandOrEnd
      if next.token.startsParameter then
        return some (← parameter self mode annotated)
      else
        return none
    else
      return none
  return .seq first more

def lambdaBody (mode : Mode) : Parser Tree := do
  let next ← peek mode.operand
  let bound ←
    if next.token.startsParameter then
      parameters self mode.unfinished false
    else
      pure Tree.empty
  symbol mode.inside ":"
  return .lambda bound (← self (.expression mode))

/-! ## Whole expressions -/

def headOperand (mode : Mode) : Parser Tree := do
  let first ← peek mode.operand
  match first.token with
  | .word "not" =>
      accept first
      self (.expression mode)
  | .word "lambda" =>
      accept first
      lambdaBody self mode
  | .word text =>
      let next := mode.after.lexeme first.after
      if text ∉ constants && next.token = .symbol ":=" then
        accept first
        accept next
        return .seq (.name text) (← self (.expression mode))
      else
        operand self mode
  | _ => operand self mode

/-- An operator with what follows it; `none` if there is no operator. -/
def continuation (mode : Mode) : Parser (Option Tree) := do
  let next ← peek mode.after
  match next.token with
  | .symbol text =>
      if text ∈ operators then
        accept next
        return some (← operand self mode)
      else
        return none
  | .word "in" =>
      accept next
      return some (← operand self mode)
  | .word "is" =>
      accept next
      let _ ← word? mode.operand "not"
      return some (← operand self mode)
  | .word "not" =>
      accept next
      keyword mode.inside "in"
      return some (← operand self mode)
  | .word "and" | .word "or" | .word "as" =>
      accept next
      return some (← self (.expression mode))
  | .word "if" =>
      if mode.conditional then
        accept next
        let condition ← self (.expression mode.unfinished)
        keyword mode.inside "else"
        let alternative ← self (.expression mode)
        return some (.seq condition alternative)
      else
        return none
  | _ => return none

def expression (mode : Mode) : Parser Tree := do
  let first ← headOperand self mode
  let more ← collect (continuation self mode)
  return .seq first more

/-! ## Single targets and replacement fields -/

def targetsBody (mode : Mode) (closing : String) : Parser Tree := do
  let next ← peek mode.operandOrEnd
  if next.token = .symbol closing then
    accept next
    return .pattern .empty
  let first ← self (.target mode)
  let more ← moreElements mode [] (self (.target mode))
  symbol mode.after closing
  return .pattern (.seq first more)

/-- An operand that can be assigned to: a name, an attribute or a subscript. Where a statement
starts, the words that open an expression are no names. -/
def assignable (mode : Mode) : Parser Tree := do
  let first ← peek mode.operand
  if mode.line && first.token ∈ [.word "not", .word "lambda", .word "yield"] then
    reject first
  let head ← atom self mode
  let (tree, _) ← trailers self mode head
  match tree with
  | .name _ | .attribute _ _ | .subscript _ _ => return tree
  | _ => reject first

/-- A tuple or list target in brackets, unless it goes on as an expression. -/
def bracketTarget (mode : Mode) (opening : Lexeme) (closing : String) : Parser Tree := do
  accept opening
  let tree ← targetsBody self mode.bracketed closing
  let next ← peek mode.after
  if next.token ∈ [.symbol ".", .symbol "[", .symbol "("] then reject next else return tree

def target (mode : Mode) : Parser Tree := do
  let first ← peek mode.operand
  match first.token with
  | .symbol "*" =>
      accept first
      return .pattern (← assignable self mode)
  | .symbol "(" => orElse (bracketTarget self mode first ")") (assignable self mode)
  | .symbol "[" => orElse (bracketTarget self mode first "]") (assignable self mode)
  | _ => assignable self mode

/-- The format specification of a replacement field, after its colon, up to and including the
closing brace. -/
def formatSpecification : Parser Tree :=
  collect do
    let cursor ← get
    let length := (cursor.rest.takeWhile fun character =>
      character ≠ '\x7b' ∧ character ≠ '\x7d').length
    match cursor.rest.drop length with
    | '\x7b' :: _ =>
        set (cursor.consume (length + 1))
        return some (← self .field)
    | '\x7d' :: _ =>
        set (cursor.consume (length + 1))
        return none
    | _ => failAt cursor.offset

def replacementField : Parser Tree := do
  let mode : Mode := { close := true, field := true }
  let value ← expressionsOrYield self mode
  let _ ← symbol? mode.after "="
  let next ← peek mode.after
  let cursor := next.before
  let cursor :=
    match cursor.rest with
    | '!' :: letter :: _ => if letter.isLower then cursor.consume 2 else cursor
    | _ => cursor
  set cursor
  let next ← peek mode.after
  match next.before.rest with
  | ':' :: _ =>
      set (next.before.consume 1)
      return .seq value (← formatSpecification self)
  | '\x7d' :: _ =>
      set (next.before.consume 1)
      return value
  | _ => reject next

end

end Inliner.Syntax
