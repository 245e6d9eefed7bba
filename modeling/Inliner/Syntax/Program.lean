import Inliner.Syntax.Statement

/-!
Whole programs. The rules of the grammar refer to each other through a `Grammar`; here they are
put together, with a depth that no text of a given length can exceed.
-/

namespace Inliner.Syntax

open Inliner.Syntax.Parser

/-- The rule for each goal, in terms of the rules it refers to. -/
def rule (self : Grammar) : Grammar
  | .expression mode => expression self mode
  | .target mode => target self mode
  | .field => replacementField self
  | .rightSide => rightSide self
  | .casePattern mode => casePattern self mode
  | .block => block self

/-- The grammar with rules nested up to a depth. -/
def grammar : Nat → Grammar
  | 0 => fun _ cursor => .error cursor.offset
  | depth + 1 => rule (grammar depth)

/-- Where a program breaks the grammar: the offsets of the statement, of the token in it that does
not fit, and after the token before that. -/
structure Fault where
  statement : Nat
  token : Nat
  previous : Nat
deriving DecidableEq, Repr

/-- The offset after the last token before an offset. -/
def previousStop (self : Grammar) : Nat → Cursor → Nat → Nat
  | 0, cursor, _ => cursor.lastStop
  | fuel + 1, cursor, offset =>
      let next := Expected.lexeme { quote := true } cursor
      if offset ≤ next.start then
        cursor.lastStop
      else
        match next.token with
        | .endOfText | .layout _ => cursor.lastStop
        | .quote style =>
            match stringBody self style next.after with
            | .ok (_, after) => previousStop self fuel after offset
            | .error _ => cursor.lastStop
        | _ => previousStop self fuel next.after offset

/-- The statements of a program from a place on. Every one reads at least one character, so
`fuel` need not exceed the length of the text. -/
def statementsFrom (self : Grammar) : Nat → Cursor → Except Fault (List Node)
  | 0, _ => .ok []
  | fuel + 1, cursor =>
      let next := Expected.lexeme { quote := true } cursor
      match next.token with
      | .endOfText => .ok []
      | _ =>
          match statement self next next.before with
          | .error token =>
              .error ⟨next.start, token, previousStop self (token + 1) next.before token⟩
          | .ok (nodes, after) =>
              match statementsFrom self fuel after with
              | .error fault => .error fault
              | .ok more => .ok (nodes ++ more)

/-- The statements of a program, or where it breaks the grammar. -/
def parseStatements (text : Text) : Except Fault (List Node) :=
  statementsFrom (grammar (2 * text.length + 8)) (text.length + 1) (.ofText text)

end Inliner.Syntax
