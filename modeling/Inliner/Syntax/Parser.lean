import Inliner.Syntax.Token
import Inliner.Syntax.Tree

/-!
Parsers over a place in a text. A failure is the offset of the token that could not be used, and
of two failed alternatives the one that got further counts.
-/

namespace Inliner.Syntax

/-- A parser: it moves on in a text and gives a result, or fails at an offset. -/
abbrev Parser (α : Type) := StateT Cursor (Except Nat) α

namespace Parser

def failAt {α : Type} (offset : Nat) : Parser α :=
  fun _ => .error offset

/-- The first of two parsers that succeeds. -/
def orElse {α : Type} (first second : Parser α) : Parser α :=
  fun cursor =>
    match first cursor with
    | .ok result => .ok result
    | .error offset =>
        match second cursor with
        | .ok result => .ok result
        | .error other => .error (max offset other)

/-- The next token. The place moves up to it, unless it has no width. -/
def peek (expected : Expected) : Parser Lexeme :=
  fun cursor =>
    let lexeme := expected.lexeme cursor
    match lexeme.token with
    | .layout _ => .ok (lexeme, cursor)
    | _ => .ok (lexeme, lexeme.before)

def accept (lexeme : Lexeme) : Parser Unit :=
  set lexeme.after

def reject {α : Type} (lexeme : Lexeme) : Parser α :=
  failAt lexeme.start

/-- Reads the token if it is the expected one, and tells whether it is. -/
def acceptIf (expected : Expected) (token : Token) : Parser Bool := do
  let lexeme ← peek expected
  if lexeme.token = token then
    accept lexeme
    return true
  else
    return false

/-- Reads a symbol if it comes next, and tells whether it does. -/
def symbol? (expected : Expected) (text : String) : Parser Bool :=
  acceptIf expected (.symbol text)

def word? (expected : Expected) (text : String) : Parser Bool :=
  acceptIf expected (.word text)

/-- Reads a token that has to come next. -/
def require (expected : Expected) (token : Token) : Parser Unit := do
  let lexeme ← peek expected
  if lexeme.token = token then accept lexeme else reject lexeme

def symbol (expected : Expected) (text : String) : Parser Unit :=
  require expected (.symbol text)

def keyword (expected : Expected) (text : String) : Parser Unit :=
  require expected (.word text)

def identifier (expected : Expected) : Parser String := do
  let lexeme ← peek expected
  match lexeme.token with
  | .word text =>
      accept lexeme
      return text
  | _ => reject lexeme

def remaining : Parser Text := do
  return (← get).rest

def lastStop : Parser Nat := do
  return (← get).lastStop

/-- Repeats a parser on a state until it gives its final state, at most `fuel` times. -/
def iterate {σ : Type} (step : σ → Parser (σ ⊕ σ)) : Nat → σ → Parser σ
  | 0, state => return state
  | fuel + 1, state => do
      match ← step state with
      | .inl next => iterate step fuel next
      | .inr final => return final

/-- Repeats a parser that reads at least one character each time on a state until it gives its
final state. -/
def loop {σ : Type} (state : σ) (step : σ → Parser (σ ⊕ σ)) : Parser σ := do
  iterate step ((← remaining).length + 1) state

/-- Repeats a parser that reads at least one character each time and gives its results in order;
`none` ends the repetition. -/
def collect (step : Parser (Option Tree)) : Parser Tree := do
  let trees ← loop [] fun trees => do
    match ← step with
    | some tree => return .inl (tree :: trees)
    | none => return .inr trees
  return Tree.ofList trees.reverse

end Parser

end Inliner.Syntax
