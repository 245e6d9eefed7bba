import Inliner.Syntax.Tree

/-!
Reading occurrences of names. A name is read wherever it stands except as an attribute, as the
label of an argument, as the target of an assignment or loop, or as the name of a definition or
parameter. Parameters hide the names outside in the body of their function, and a body runs
later than the definition that holds it.
-/

namespace Inliner.Syntax

/-- A name that is read, and whether a function body or lambda body stands around it. -/
structure Occurrence where
  name : String
  deferred : Bool
deriving DecidableEq, Repr

/-- How a tree is looked at: names are read, or plain names are written, or they are parameters, of
which only defaults and annotations are read. -/
inductive Role where
  | value
  | target
  | parameters
deriving DecidableEq, Repr

/-- The names hidden by the parameters of enclosing functions, and whether a body encloses. -/
structure Scope where
  hidden : List String
  deferred : Bool
deriving DecidableEq, Repr

namespace Scope

def top : Scope := ⟨[], false⟩

def body (scope : Scope) (parameters : List String) : Scope :=
  ⟨scope.hidden ++ parameters, true⟩

/-- The occurrence of a name that is read in a scope, unless a parameter hides it. -/
def read (scope : Scope) (identifier : String) : List Occurrence :=
  if identifier ∈ scope.hidden then [] else [⟨identifier, scope.deferred⟩]

end Scope

namespace Tree

/-- The reading occurrences in a tree, from left to right. -/
def occurrences (role : Role) (scope : Scope) : Tree → List Occurrence
  | .empty => []
  | .seq first second => first.occurrences role scope ++ second.occurrences role scope
  | .name identifier =>
      match role with
      | .value => scope.read identifier
      | .target | .parameters => []
  | .attribute object _ =>
      match role with
      | .parameters => []
      | .value | .target => object.occurrences .value scope
  | .subscript value indices =>
      match role with
      | .parameters => []
      | .value | .target => value.occurrences .value scope ++ indices.occurrences .value scope
  | .keyword _ value =>
      match role with
      | .parameters => []
      | .value | .target => value.occurrences .value scope
  | .pattern parts =>
      match role with
      | .parameters => []
      | .value | .target => parts.occurrences role scope
  | .binding _ target rest =>
      match role with
      | .parameters => []
      | .value | .target => target.occurrences .target scope ++ rest.occurrences .value scope
  | .update target rest =>
      match role with
      | .parameters => []
      | .value | .target => target.occurrences .value scope ++ rest.occurrences .value scope
  | .parameter binder reads =>
      match role with
      | .parameters => reads.occurrences .value scope
      | .value | .target => binder.occurrences .value scope ++ reads.occurrences .value scope
  | .function _ _ parameters returns body =>
      match role with
      | .parameters => []
      | .value | .target =>
          parameters.occurrences .parameters scope ++ returns.occurrences .value scope ++
            body.occurrences .value (scope.body parameters.parameterNames)
  | .lambda parameters body =>
      match role with
      | .parameters => []
      | .value | .target =>
          parameters.occurrences .parameters scope ++
            body.occurrences .value (scope.body parameters.parameterNames)
  | .classDefinition _ rest =>
      match role with
      | .parameters => []
      | .value | .target => rest.occurrences .value scope
  | .decorated decorators definition =>
      match role with
      | .parameters => []
      | .value | .target =>
          decorators.occurrences .value scope ++ definition.occurrences .value scope
  | .importing _ identifiers =>
      match role with
      | .parameters => []
      | .value | .target => identifiers.occurrences .value scope
  | .block statements =>
      match role with
      | .parameters => []
      | .value | .target => statements.occurrences .value scope

end Tree

def insertName (identifier : String) : List String → List String
  | [] => [identifier]
  | first :: rest =>
      if identifier < first then
        identifier :: first :: rest
      else if identifier = first then
        first :: rest
      else
        first :: insertName identifier rest

def nameSet (identifiers : List String) : List String :=
  identifiers.foldr insertName []

namespace Tree

/-- The names read anywhere in the code of a statement, in ascending order. -/
def references (tree : Tree) : List String :=
  nameSet ((tree.occurrences .value .top).map (·.name))

/-- The names read while a statement itself runs, in ascending order: those not inside the body
of a function. -/
def eagerReferences (tree : Tree) : List String :=
  nameSet (((tree.occurrences .value .top).filter (!·.deferred)).map (·.name))

end Tree

end Inliner.Syntax
