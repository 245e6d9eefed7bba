import Inliner.Source.Import
import Inliner.Syntax.CasePattern

/-!
Statements. A statement keeps what later stages ask of it: its form, its name structure and the
stretch of text it covers. A rule that is named after a kind of statement reads on after the word
that starts it.
-/

namespace Inliner.Syntax

open Inliner.Syntax.Parser

/-- What kind of statement it is, with what matters about that kind. -/
inductive Form where
  | definition (name : String)
  | importing (clauses : List ImportClause)
  | future (names : List String)
  | branch (condition : Text)
  | assignment (target : Tree)
  | other
deriving DecidableEq, Repr, Inhabited

structure Node where
  form : Form
  tree : Tree
  span : Span
deriving DecidableEq, Repr, Inhabited

/-- The text from a token up to the last token that was read. -/
def textFrom (lexeme : Lexeme) : Parser Text := do
  return lexeme.before.rest.take ((← lastStop) - lexeme.start)

/-- What is expected where a statement starts: inside a block, also the end of the block. -/
def statementStart : Parser Expected := do
  return { dedent := !(← get).indents.isEmpty, quote := true }

/-! ## Imports -/

structure ImportItem where
  first : String
  name : Text
  newName : Option String
  text : Text
  tree : Tree

namespace ImportItem

def imported (item : ImportItem) : ImportedName :=
  ⟨String.ofList item.name, item.newName⟩

def clause (item : ImportItem) : ImportClause :=
  ⟨.absolute item.name, .module item.newName, item.text⟩

/-- The identifier that the item binds: its new name, or else the first of its names. -/
def identifier (item : ImportItem) : String :=
  item.newName.getD item.first

end ImportItem

/-- Names with dots between them, from the token at hand on: the first of them, and all. -/
def dottedName (mode : Mode) (start : Lexeme) : Parser (String × Tree) := do
  match start.token with
  | .word first =>
      accept start
      let more ← collect do
        if ← symbol? mode.after "." then
          return some (.name (← identifier mode.inside))
        else
          return none
      return (first, .seq (.name first) more)
  | _ => reject start

def importItem (mode : Mode) : Parser ImportItem := do
  let start ← peek mode.inside
  let (first, tree) ← dottedName mode start
  let name ← textFrom start
  if ← word? mode.after "as" then
    let newName ← identifier mode.inside
    return ⟨first, name, some newName, ← textFrom start, .seq tree (.name newName)⟩
  else
    return ⟨first, name, none, name, tree⟩

/-- One or more items with commas between them, and possibly a last comma. -/
def importItems (mode : Mode) : Parser (List ImportItem) := do
  let first ← importItem mode
  let items ← loop [first] fun items => do
    if ← symbol? mode.after "," then
      let next ← peek mode.after
      match next.token with
      | .word _ => return .inl ((← importItem mode) :: items)
      | _ => return .inr items
    else
      return .inr items
  return items.reverse

/-- The items of an import list, possibly in parentheses. -/
def importList : Parser (List ImportItem) := do
  let mode : Mode := { close := true }
  if ← symbol? {} "(" then
    let items ← importItems mode
    symbol mode.after ")"
    return items
  else
    importItems .statement

def itemsTree (items : List ImportItem) : Tree :=
  .ofList (items.map (·.tree))

/-- An `import` statement, after its first word. -/
def importStatement : Parser (Form × Tree) := do
  let items ← importItems .statement
  let names := items.map (·.identifier)
  return (.importing (items.map (·.clause)), .importing names (itemsTree items))

/-- The number of dots before a relative module path, from the first to the last one. Those of the
comments between them count as well. -/
def leadingDots : Parser Nat :=
  loop 0 fun count => do
    let ahead ← remaining
    let next ← peek {}
    match next.before.rest with
    | '.' :: _ =>
        let skipped := ahead.take (ahead.length - next.before.rest.length)
        set (next.before.consume 1)
        return .inl (count + skipped.count '.' + 1)
    | _ => return .inr count

/-- A `from` statement that is no import of language features, after its first word. -/
def fromStatement : Parser (Form × Tree) := do
  let start ← peek {}
  let level ← leadingDots
  let next ← peek {}
  let (path, pathTree) ←
    if level > 0 && next.token = .word "import" then
      pure (([] : Text), Tree.empty)
    else do
      let (_, tree) ← dottedName .header next
      pure (← textFrom next, tree)
  keyword {} "import"
  let next ← peek {}
  let (names, tree) ←
    if next.token = .symbol "*" then do
      accept next
      pure (ImportedNames.wildcard, Tree.importing [] pathTree)
    else do
      let items ← importList
      let tree := Tree.importing (items.map (·.identifier)) (.seq pathTree (itemsTree items))
      pure (.named (items.map (·.imported)), tree)
  return (.importing [⟨.relative level path, names, ← textFrom start⟩], tree)

/-- A `from` statement, after its first word. -/
def fromOrFutureStatement : Parser (Form × Tree) := do
  if ← word? {} "__future__" then
    keyword {} "import"
    let items ← importList
    return (.future (items.map fun item => String.ofList item.name), itemsTree items)
  else
    fromStatement

section

variable (self : Grammar)

/-! ## Assignments and expressions -/

def assignmentOperators : List String :=
  ["+=", "-=", "*=", "/=", "@=", "//=", "%=", "**=", ">>=", "<<=", "&=", "^=", "|="]

/-- Reads on only if a statement ends here. -/
def statementEnd : Parser Unit := do
  let next ← peek { newline := true }
  if next.token = .layout .newline || next.token = .symbol ";" then
    return
  else
    reject next

/-- A parser after which the statement has to end. -/
def wholeStatement {α : Type} (parser : Parser α) : Parser α := do
  let result ← parser
  statementEnd
  return result

/-- An assignment: its target and its name structure. -/
def assignment : Parser (Tree × Tree) := do
  let mode := Mode.statement
  let left ← targets self mode
  let next ← peek mode.after
  match next.token with
  | .symbol "=" =>
      accept next
      return (left, .binding .assignment left (← self .rightSide))
  | .symbol ":" =>
      accept next
      let annotated ← restrictedAnnotation self mode
      if ← symbol? mode.after "=" then
        return (left, .binding .assignment left (.seq annotated (← self .rightSide)))
      else
        return (left, .binding .assignment left annotated)
  | .symbol text =>
      if text ∈ assignmentOperators then
        accept next
        return (left, .update left (← self .rightSide))
      else
        reject next
  | _ => reject next

/-- The right side of an assignment: expressions, `yield` or another assignment. -/
def rightSide : Parser Tree := do
  let first ← peek Mode.statement.operand
  if first.token = .word "yield" then
    accept first
    yieldArgument self .statement
  else
    orElse (return (← assignment self).2) (wholeStatement (expressions self .statement))

def expressionStatement : Parser (Form × Tree) := do
  let first ← peek Mode.statement.operand
  if first.token = .word "yield" then
    accept first
    return (.other, ← yieldArgument self .statement)
  else
    orElse
      (do
        let (left, tree) ← assignment self
        return (.assignment left, tree))
      (return (.other, ← wholeStatement (expressions self .statement)))

/-! ## Other simple statements -/

def optionalExpressions (stops : List String) : Parser Tree := do
  let mode := Mode.statement
  let next ← peek mode.operandOrEnd
  match next.token with
  | .word text =>
      if text ∈ stops then return .empty else expressionsUntil self mode stops
  | token => if token.startsExpression then expressionsUntil self mode stops else return .empty

def printStatement : Parser (Form × Tree) := do
  let mode := Mode.statement
  if ← symbol? mode.operand ">>" then
    return (.other, ← expressions self mode)
  else
    return (.other, ← expressions self mode)

def execStatement : Parser (Form × Tree) := do
  let mode := Mode.statement
  let first ← peek mode.operand
  let code ←
    match first.token with
    | .quote style => do
        accept first
        stringBody self style
    | _ => do
        pure (.name (← identifier mode.operand))
  let namespaces ←
    if ← word? mode.after "in" then strictExpressions self mode else pure Tree.empty
  return (.other, .seq code namespaces)

def typeAlias : Parser (Form × Tree) := do
  let left ← restrictedAnnotation self .header
  symbol {} "="
  let right ← restrictedAnnotation self .statement
  return (.other, .seq left right)

def raiseStatement : Parser (Form × Tree) := do
  let mode := Mode.statement
  let raised ← optionalExpressions self ["from"]
  let cause ←
    if ← word? mode.after "from" then self (.expression mode) else pure Tree.empty
  return (.other, .seq raised cause)

def nameList : Parser (Form × Tree) := do
  let first ← identifier {}
  let more ← collect do
    if ← symbol? Mode.statement.after "," then
      return some (.name (← identifier {}))
    else
      return none
  return (.other, .seq (.name first) more)

def simpleStatement : Parser (Form × Tree) := do
  let first ← peek { quote := true }
  match first.token with
  | .word "import" =>
      accept first
      importStatement
  | .word "from" =>
      accept first
      fromOrFutureStatement
  | .word "print" =>
      let statement : Parser (Form × Tree) := do
        accept first
        printStatement self
      if (Mode.statement.after.lexeme first.after).token = .symbol ">>" then
        statement
      else
        orElse (wholeStatement (expressionStatement self)) statement
  | .word "exec" =>
      orElse (wholeStatement (expressionStatement self)) do
        accept first
        execStatement self
  | .word "type" =>
      orElse
        (wholeStatement do
          accept first
          typeAlias self)
        (expressionStatement self)
  | .word "assert" =>
      accept first
      return (.other, ← strictExpressions self .statement)
  | .word "return" =>
      accept first
      return (.other, ← optionalExpressions self [])
  | .word "del" =>
      accept first
      return (.other, ← expressions self .statement)
  | .word "raise" =>
      accept first
      raiseStatement self
  | .word "global" | .word "nonlocal" =>
      accept first
      nameList
  | .word "pass" | .word "break" | .word "continue" =>
      accept first
      return (.other, .empty)
  | _ => expressionStatement self

/-- Simple statements on one line, with semicolons between them. -/
def simpleLine : Parser (List Node) := do
  let nodes ← loop [] fun nodes => do
    let first ← peek { quote := true }
    let (form, tree) ← simpleStatement self
    let nodes := ⟨form, tree, ⟨first.start, ← lastStop⟩⟩ :: nodes
    let next ← peek { newline := true }
    match next.token with
    | .symbol ";" =>
        accept next
        let next ← peek { newline := true, quote := true }
        if next.token = .layout .newline then
          accept next
          return .inr nodes
        else
          return .inl nodes
    | .layout .newline =>
        accept next
        return .inr nodes
    | _ => reject next
  return nodes.reverse

/-! ## Compound statements -/

def colonBlock : Parser Tree := do
  symbol {} ":"
  self .block

/-- A clause that starts with a word and has nothing else before its colon. -/
def plainClause? (word : String) : Parser Tree := do
  if ← word? (← statementStart) word then colonBlock self else return .empty

def ifStatement : Parser (Form × Tree) := do
  let start ← peek Mode.header.operand
  let condition ← self (.expression .header)
  let text ← textFrom start
  let consequence ← colonBlock self
  let alternatives ← collect do
    if ← word? (← statementStart) "elif" then
      let condition ← self (.expression .header)
      return some (.seq condition (← colonBlock self))
    else
      return none
  let otherwise ← plainClause? self "else"
  return (.branch text, .seq condition (.seq consequence (.seq alternatives otherwise)))

def forStatement : Parser Tree := do
  let left ← targets self .header
  keyword {} "in"
  let right ← expressions self .header
  let body ← colonBlock self
  let otherwise ← plainClause? self "else"
  return .binding .loop left (.seq right (.seq body otherwise))

def whileStatement : Parser Tree := do
  let condition ← self (.expression .header)
  let body ← colonBlock self
  let otherwise ← plainClause? self "else"
  return .seq condition (.seq body otherwise)

def withStatement : Parser Tree := do
  let items ← expressions self .header
  return .seq items (← colonBlock self)

/-- What an exception handler catches, and the name it gives it. -/
def caught (group : Bool) : Parser Tree := do
  let next ← peek Mode.header.operand
  if !group && next.token = .symbol ":" then
    return .empty
  else
    let kind ← self (.expression .header)
    if group then
      return kind
    else if ← symbol? {} "," then
      return .seq kind (← self (.expression .header))
    else
      return kind

/-- An exception handler; `none` if there is none. Handlers of exception groups are written with
a star right after the word. -/
def handler? (expected : Expected) (group : Bool) : Parser (Option Tree) := do
  let next ← peek expected
  let starred := next.after.rest.head? = some '*'
  if next.token = .word "except" && (!group || starred) then
    accept next
    if group then
      modify (·.consume 1)
    let kind ← caught self group
    return some (.seq kind (← colonBlock self))
  else
    return none

def tryStatement : Parser Tree := do
  let body ← colonBlock self
  let expected : Expected := { handler := true }
  let next ← peek expected
  if next.token = .word "finally" then
    accept next
    return .seq body (← colonBlock self)
  let group := next.after.rest.head? = some '*'
  match ← handler? self expected group with
  | none => reject next
  | some first =>
      let more ← collect do
        handler? self { (← statementStart) with handler := true } group
      let otherwise ← plainClause? self "else"
      let final ← plainClause? self "finally"
      return .seq body (.seq first (.seq more (.seq otherwise final)))

def typeParameters : Parser Tree := do
  if ← symbol? {} "[" then
    let mode : Mode := { close := true, annotation := true }
    let first ← restrictedAnnotation self mode
    let more ← collect do
      if ← symbol? mode.after "," then
        let next ← peek mode.operandOrEnd
        if next.token.startsExpression || next.token = .symbol "**" then
          return some (← restrictedAnnotation self mode)
        else
          return none
      else
        return none
    symbol mode.after "]"
    return .seq first more
  else
    return .empty

def functionDefinition : Parser (String × Tree) := do
  let name ← identifier {}
  let types ← typeParameters self
  symbol {} "("
  let mode : Mode := { close := true }
  let next ← peek mode.operandOrEnd
  let bound ←
    if next.token.startsParameter then parameters self mode true else pure Tree.empty
  symbol mode.after ")"
  let returns ← if ← symbol? {} "->" then annotation self .header else pure Tree.empty
  let body ← colonBlock self
  return (name, .function name types bound returns body)

def classDefinition : Parser (String × Tree) := do
  let name ← identifier {}
  let types ← typeParameters self
  let bases ←
    if ← symbol? {} "(" then argumentsBody self Mode.header.bracketed else pure Tree.empty
  let body ← colonBlock self
  return (name, .classDefinition name (.seq types (.seq bases body)))

def decoratedDefinition : Parser (String × Tree) := do
  let decorators ← collect do
    if ← symbol? { quote := true } "@" then
      let decorator ← self (.expression .statement)
      require Mode.statement.after (.layout .newline)
      return some decorator
    else
      return none
  let next ← peek {}
  let (name, tree) ←
    match next.token with
    | .word "def" => do
        accept next
        functionDefinition self
    | .word "async" => do
        accept next
        keyword {} "def"
        functionDefinition self
    | .word "class" => do
        accept next
        classDefinition self
    | _ => reject next
  return (name, .decorated decorators tree)

def caseClause : Parser Tree := do
  let mode := Mode.header
  let first ← self (.casePattern mode)
  let more ← collect do
    if ← symbol? mode.after "," then
      let next ← peek mode.operand
      if next.token = .symbol ":" || next.token = .word "if" then
        return none
      else
        return some (← self (.casePattern mode))
    else
      return none
  let guard ←
    if ← word? mode.after "if" then self (.expression mode) else pure Tree.empty
  return .seq first (.seq more (.seq guard (← colonBlock self)))

def matchStatement : Parser Tree := do
  let subjects ← expressions self .header
  symbol {} ":"
  let next ← peek { newline := true, indent := true }
  match next.token with
  | .layout .newline =>
      accept next
      return subjects
  | .layout (.indent _) =>
      accept next
      let clauses ← collect do
        let next ← peek { dedent := true }
        match next.token with
        | .layout .dedent =>
            accept next
            return none
        | .word "case" =>
            accept next
            return some (← caseClause self)
        | _ => reject next
      return .seq subjects clauses
  | _ => reject next

/-- A statement whose first word can only start a compound statement; `none` if it cannot. -/
def compoundStatement? (first : Lexeme) : Option (Parser (Form × Tree)) :=
  let other (parser : Parser Tree) : Parser (Form × Tree) := do
    accept first
    return (.other, ← parser)
  let definition (parser : Parser (String × Tree)) : Parser (Form × Tree) := do
    let (name, tree) ← parser
    return (.definition name, tree)
  match first.token with
  | .symbol "@" => some (definition (decoratedDefinition self))
  | .word "if" =>
      some do
        accept first
        ifStatement self
  | .word "for" => some (other (forStatement self))
  | .word "while" => some (other (whileStatement self))
  | .word "try" => some (other (tryStatement self))
  | .word "with" => some (other (withStatement self))
  | .word "def" =>
      some <| definition do
        accept first
        functionDefinition self
  | .word "class" =>
      some <| definition do
        accept first
        classDefinition self
  | .word "async" =>
      let second := Expected.lexeme {} first.after
      match second.token with
      | .word "def" =>
          some <| definition do
            accept second
            functionDefinition self
      | .word "for" =>
          some do
            accept second
            return (.other, ← forStatement self)
      | .word "with" =>
          some do
            accept second
            return (.other, ← withStatement self)
      | _ => none
  | _ => none

/-- A compound statement, or the simple statements on a line. -/
def statement (first : Lexeme) : Parser (List Node) := do
  let compound (parser : Parser (Form × Tree)) : Parser (List Node) := do
    let (form, tree) ← parser
    return [⟨form, tree, ⟨first.start, ← lastStop⟩⟩]
  match compoundStatement? self first with
  | some parser => compound parser
  | none =>
      if first.token = .word "match" then
        orElse
          (compound do
            accept first
            return (.other, ← matchStatement self))
          (simpleLine self)
      else
        simpleLine self

def nodesTree (nodes : List Node) : Tree :=
  .ofList (nodes.map (·.tree))

def block : Parser Tree := do
  let first ← peek { newline := true, indent := true, quote := true }
  match first.token with
  | .layout .newline =>
      accept first
      return .block .empty
  | .layout (.indent _) =>
      accept first
      let statements ← collect do
        let next ← peek { dedent := true, quote := true }
        match next.token with
        | .layout .dedent =>
            accept next
            return none
        | .endOfText => reject next
        | _ => return some (nodesTree (← statement self next))
      return .block statements
  | _ => return .block (nodesTree (← simpleLine self))

end

end Inliner.Syntax
