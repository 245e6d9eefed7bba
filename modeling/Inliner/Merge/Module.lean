import Inliner.File.Location
import Inliner.Source.Render

/-!
Loaded files and what is decided about them.
-/

namespace Inliner

/-- What an importer needs of a module: all of the main file, every segment, or the definitions of
some names and what they need. -/
inductive Request where
  | main
  | whole
  | names (names : List ImportedName)
deriving DecidableEq, Repr, Inhabited

structure Dependency where
  target : Location
  request : Request
  module : String
  line : Nat
deriving DecidableEq, Repr, Inhabited

/-- A loaded file. It is not parsed if it could not be told what it consists of and need not be. Its
edits are by the indices of the statements, and those not listed are kept. -/
structure Module where
  id : Nat
  path : Path
  text : Text
  parsed : Option ParsedSource
  dependencies : List Dependency
  edits : List (Nat × Edit)
  futures : List String
  isMain : Bool
deriving DecidableEq, Repr, Inhabited

namespace Module

def edit (module : Module) (statement : Nat) : Edit :=
  (module.edits.lookup statement).getD .keep

def isVerbatim (module : Module) : Bool :=
  module.parsed.isNone

/-- The whole file with its statements edited. -/
def cleanedText (module : Module) : Text :=
  match module.parsed with
  | some source => source.render module.edit
  | none => module.text

end Module

end Inliner
