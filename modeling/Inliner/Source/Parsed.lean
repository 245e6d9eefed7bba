import Inliner.Source.Error
import Inliner.Source.Segment
import Inliner.Syntax.Fault

/-!
Parsed sources: the statements, imports and segments of a text.
-/

namespace Inliner

open Syntax

structure ImportDeclaration extends ImportClause where
  statement : Nat
  line : Nat
deriving DecidableEq, Repr, Inhabited

namespace ImportDeclaration

def isWildcard (declaration : ImportDeclaration) : Bool :=
  declaration.names == .wildcard

/-- The names asked for; `none` if it is the whole module. -/
def symbols? (declaration : ImportDeclaration) : Option (List ImportedName) :=
  match declaration.names with
  | .named names => some names
  | .wildcard | .module _ => none

end ImportDeclaration

/-- A source and what its top level consists of. -/
structure ParsedSource where
  text : Text
  imports : List ImportDeclaration
  statements : List Statement
  segments : List Segment
  trailing : Span
deriving DecidableEq, Repr, Inhabited

/-- The imports of statements from an index on. -/
def declarationsFrom (text : Text) : Nat → List Node → List ImportDeclaration
  | _, [] => []
  | index, node :: nodes =>
      node.form.clauses.map (fun clause => ⟨clause, index, text.rowAt node.span.start + 1⟩) ++
        declarationsFrom text (index + 1) nodes

namespace ParsedSource

def ofNodes (text : Text) (nodes : List Node) : ParsedSource :=
  let segments := Segment.ofSpans text (nodes.map (·.span))
  { text := text
    imports := declarationsFrom text 0 nodes
    statements := nodes.map (Node.statement text)
    segments := segments
    trailing := ⟨Segment.stopOf segments, text.length⟩ }

/-- Analyses a text; anything that breaks the grammar makes it fail. -/
def parse (text : Text) : Except SyntaxError ParsedSource :=
  match parseStatements text with
  | .ok nodes => .ok (ofNodes text (withJoins text 0 nodes))
  | .error fault =>
      let offset := fault.reported text
      .error (.parse (text.rowAt offset + 1) (text.byteColumnAt offset + 1))

/-- The comments and blank lines after the last statement. -/
def trailingText (source : ParsedSource) : Text :=
  source.trailing.slice source.text

def segmentStatements (source : ParsedSource) (segment : Segment) : List Statement :=
  (source.statements.drop segment.statements.start).take
    (segment.statements.stop - segment.statements.start)

def statementsOf (source : ParsedSource) (index : Nat) : List Statement :=
  match source.segments[index]? with
  | some segment => source.segmentStatements segment
  | none => []

/-- The name that a segment defines, if it consists of one definition. -/
def definitionOf? (source : ParsedSource) (index : Nat) : Option String :=
  match source.statementsOf index with
  | [only] => only.definitionName?
  | _ => none

def boundNames (source : ParsedSource) : List String :=
  source.statements.flatMap (·.binds)

end ParsedSource

end Inliner
