/-!
Syntax trees as far as names matter. A tree keeps where names are read, written and bound; it
forgets operators, literals and the like.
-/

namespace Inliner.Syntax

/-- What gives the names of a target their values. -/
inductive BindingKind where
  | assignment
  | loop
  | comprehension
deriving DecidableEq, Repr, Inhabited

/-- The name structure of a piece of a program. What is bound or named comes first, and then
everything else in it. -/
inductive Tree where
  | empty
  | seq (first second : Tree)
  | name (identifier : String)
  | attribute (object : Tree) (field : String)
  | subscript (value indices : Tree)
  | keyword (label : String) (value : Tree)
  | pattern (parts : Tree)
  | binding (kind : BindingKind) (target rest : Tree)
  | update (target rest : Tree)
  | parameter (binder reads : Tree)
  | function (identifier : String) (typeParameters parameters returns body : Tree)
  | lambda (parameters body : Tree)
  | classDefinition (identifier : String) (rest : Tree)
  | decorated (decorators definition : Tree)
  | importing (names : List String) (identifiers : Tree)
  | block (statements : Tree)
deriving DecidableEq, Repr, Inhabited

namespace Tree

def ofList : List Tree → Tree
  | [] => .empty
  | [tree] => tree
  | tree :: next :: trees => .seq tree (ofList (next :: trees))

/-- The names that a pattern writes: identifiers reached through tuples, lists, stars and commas
only. -/
def boundNames : Tree → List String
  | .name identifier => [identifier]
  | .seq first second => first.boundNames ++ second.boundNames
  | .pattern parts => parts.boundNames
  | _ => []

def parameterNames : Tree → List String
  | .seq first second => first.parameterNames ++ second.parameterNames
  | .parameter binder _ => binder.boundNames
  | _ => []

end Tree

end Inliner.Syntax
