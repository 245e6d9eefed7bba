import Inliner.Syntax.Occurrence
import Inliner.Syntax.Statement
import Inliner.Text.Lines

/-!
Top-level statements and what they touch.
-/

namespace Inliner

open Syntax

/-- The kind of a top-level statement. -/
inductive StatementKind where
  | definition (name : String)
  | importing
  | future (names : List String)
  | mainGuard
  | other
deriving DecidableEq, Repr, Inhabited

/-- A top-level statement. Lines count from one, and the names that are read are in ascending order.
-/
structure Statement where
  kind : StatementKind
  span : Span
  line : Nat
  binds : List String
  references : List String
  eagerReferences : List String
deriving DecidableEq, Repr, Inhabited

namespace Statement

def definitionName? (statement : Statement) : Option String :=
  match statement.kind with
  | .definition name => some name
  | _ => none

end Statement

/-- A condition without white space and with double quotation marks only. -/
def compactCondition (condition : Text) : Text :=
  (condition.filter (!Text.isSpace ·)).map fun character =>
    if character = '\'' then '"' else character

/-- Whether a condition holds in the main file only: `__name__` compared with `"__main__"`. -/
def isMainCondition (condition : Text) : Bool :=
  let compact := compactCondition condition
  compact == "__name__==\"__main__\"".toList || compact == "\"__main__\"==__name__".toList

namespace Syntax

namespace Form

def kind : Form → StatementKind
  | .definition name => .definition name
  | .importing _ => .importing
  | .future names => .future names
  | .branch condition => if isMainCondition condition then .mainGuard else .other
  | .assignment _ | .other => .other

def binds : Form → List String
  | .definition name => [name]
  | .importing clauses => clauses.flatMap ImportClause.boundNames
  | .assignment target => target.boundNames
  | .future _ | .branch _ | .other => []

def clauses : Form → List ImportClause
  | .importing clauses => clauses
  | _ => []

/-- Whether the names of a form count as read: those of an import do not. -/
def isRead : Form → Bool
  | .importing _ | .future _ => false
  | _ => true

end Form

namespace Node

/-- The name structure of a statement as far as it reads. -/
def readTree (node : Node) : Tree :=
  if node.form.isRead then node.tree else .empty

def statement (text : Text) (node : Node) : Statement where
  kind := node.form.kind
  span := node.span
  line := text.rowAt node.span.start + 1
  binds := node.form.binds
  references := node.readTree.references
  eagerReferences := node.readTree.eagerReferences

end Node

end Syntax

/-! ## Joined lines between statements -/

/-- The backslashes that join lines in a stretch between two statements. -/
def lineJoins (inComment : Bool) (offset : Nat) : Text → List Span
  | [] => []
  | '\n' :: rest => lineJoins false (offset + 1) rest
  | '\\' :: '\n' :: rest =>
      if inComment then
        lineJoins false (offset + 2) rest
      else
        ⟨offset, offset + 2⟩ :: lineJoins false (offset + 2) rest
  | '\\' :: '\r' :: '\n' :: rest =>
      if inComment then
        lineJoins false (offset + 3) rest
      else
        ⟨offset, offset + 3⟩ :: lineJoins false (offset + 3) rest
  | ['\\'] => if inComment then [] else [⟨offset, offset + 1⟩]
  | '#' :: rest => lineJoins true (offset + 1) rest
  | _ :: rest => lineJoins inComment (offset + 1) rest

/-- The joined lines of a text between two offsets, as statements without names. -/
def joinNodes (text : Text) (span : Span) : List Node :=
  (lineJoins false span.start (span.slice text)).map fun join => ⟨.other, .empty, join⟩

/-- Statements of a text from an offset on, with the joined lines between them. -/
def withJoins (text : Text) (offset : Nat) : List Node → List Node
  | [] => joinNodes text ⟨offset, text.length⟩
  | node :: nodes =>
      joinNodes text ⟨offset, node.span.start⟩ ++ node :: withJoins text node.span.stop nodes

end Inliner
