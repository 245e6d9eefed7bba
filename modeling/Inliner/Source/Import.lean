import Inliner.Source.ModulePath

/-!
What import statements ask for.
-/

namespace Inliner

structure ImportedName where
  name : String
  newName : Option String
deriving DecidableEq, Repr, Inhabited

namespace ImportedName

/-- The name that the importing module sees. -/
def boundName (imported : ImportedName) : String :=
  imported.newName.getD imported.name

end ImportedName

/-- What an import asks for. -/
inductive ImportedNames where
  | wildcard
  | named (names : List ImportedName)
  | module (newName : Option String)
deriving DecidableEq, Repr, Inhabited

/-- One module that an import statement refers to, with the part of the statement that says so. -/
structure ImportClause where
  module : ModulePath
  names : ImportedNames
  text : Text
deriving DecidableEq, Repr, Inhabited

namespace ImportClause

def boundNames (clause : ImportClause) : List String :=
  match clause.names with
  | .wildcard => []
  | .named names => names.map ImportedName.boundName
  | .module (some newName) => [newName]
  | .module none => clause.module.head?.toList

end ImportClause

end Inliner
