import Inliner.Syntax.Expression

/-!
Patterns of `case` clauses. Every name in them counts as read, except the wildcard `_`.
-/

namespace Inliner.Syntax

open Inliner.Syntax.Parser

section

variable (self : Grammar)

def imaginaryPart (mode : Mode) : Parser Unit := do
  let next ← peek mode.after
  if next.token = .symbol "+" || next.token = .symbol "-" then
    accept next
    require mode.operand .number

def casePatternsBody (mode : Mode) (closing : String) (part : Parser Tree) : Parser Tree := do
  let next ← peek mode.operandOrEnd
  if next.token = .symbol closing then
    accept next
    return .empty
  let first ← part
  let more ← collect do
    if ← symbol? mode.after "," then
      let next ← peek mode.operandOrEnd
      if next.token = .symbol closing then
        return none
      else
        return some (← part)
    else
      return none
  symbol mode.after closing
  return .seq first more

def starredCapture (mode : Mode) : Parser Tree := do
  let name ← identifier mode.operand
  return if name = "_" then .empty else .name name

def namedPattern (mode : Mode) (first : String) : Parser Tree := do
  let more ← collect do
    if ← symbol? mode.after "." then
      return some (.name (← identifier mode.inside))
    else
      return none
  let inner := mode.bracketed
  let parts ←
    if ← symbol? mode.after "(" then
      casePatternsBody inner ")" (self (.casePattern inner))
    else
      pure Tree.empty
  return .seq (.name first) (.seq more parts)

/-- A pattern without alternatives. The key and the value of an entry of a mapping pattern are
read by `entry`. -/
def closedPattern (mode : Mode) (entry : Mode → Parser Tree) : Parser Tree := do
  let first ← peek mode.operand
  let inner := mode.bracketed
  match first.token with
  | .word text =>
      accept first
      if text ∈ "_" :: constants then
        return .empty
      else
        namedPattern self mode text
  | .number =>
      accept first
      imaginaryPart mode
      return .empty
  | .quote style =>
      accept first
      let head ← stringBody self style
      let more ← moreStrings self mode
      return .seq head more
  | .symbol "-" =>
      accept first
      require mode.operand .number
      imaginaryPart mode
      return .empty
  | .symbol "*" | .symbol "**" =>
      accept first
      starredCapture mode
  | .symbol "[" =>
      accept first
      casePatternsBody inner "]" (self (.casePattern inner))
  | .symbol "(" =>
      accept first
      casePatternsBody inner ")" (self (.casePattern inner))
  | .symbol "\x7b" =>
      accept first
      casePatternsBody inner "\x7d" (entry inner)
  | _ => reject first

def entryPattern (mode : Mode) : Parser Tree := do
  let first ← peek mode.operand
  if first.token = .symbol "**" || first.token = .symbol "*" then
    accept first
    starredCapture mode
  else
    let key ← self (.casePattern mode.unfinished)
    symbol mode.inside ":"
    let value ← self (.casePattern mode)
    return .seq key value

/-- A pattern with alternatives and names for what it matches. -/
def casePattern (mode : Mode) : Parser Tree := do
  let first ← peek mode.operand
  let label ←
    match first.token with
    | .word text =>
        let next := mode.after.lexeme first.after
        if next.token = .symbol "=" then
          accept first
          accept next
          pure (Tree.name text)
        else
          pure .empty
    | _ => pure .empty
  let pattern := closedPattern self mode (entryPattern self)
  let head ← pattern
  let alternatives ← collect do
    if ← symbol? mode.after "|" then return some (← pattern) else return none
  let names ← collect do
    if ← word? mode.after "as" then
      return some (.name (← identifier mode.inside))
    else
      return none
  return .seq label (.seq head (.seq alternatives names))

end

end Inliner.Syntax
