import Inliner.File.Pattern
import Inliner.File.Tree
import Inliner.Language
import Inliner.Selection.Choice
import Inliner.Text.Identifier
import Inliner.Text.Quoted

/-!
The configuration of a merge.
-/

namespace Inliner

/-- How files are merged. The name of the library directory is the name of the library, the
extension has no dot, and the fixtures are given by patterns. -/
structure MergeConfig where
  workspaceRoot : Path := .ofString "."
  libraryRoot : Path := .ofString "contest/lib"
  extension : String := "py"
  symbolPolicy : SymbolPolicy := .withDependencies
  stripMainGuard : Bool := true
  hoistFutureImports : Bool := true
  lenientFixtures : List String := []
deriving DecidableEq, Repr, Inhabited

/-- Why a configuration cannot be used. -/
inductive ConfigError where
  | malformedExtension (extension : String)
  | foreignExtension (extension : String)
  | namelessLibrary (root : Path)
  | unimportableLibrary (name : String)
  | libraryOutside (library workspace : Location)
  | malformedPattern (pattern : String) (error : PatternError)
deriving DecidableEq, Repr

namespace ConfigError

def message : ConfigError → String
  | .malformedExtension extension =>
      "extension must be non-empty and given without a dot (got " ++ Text.quoted extension ++ ")"
  | .foreignExtension extension =>
      "extension " ++ Text.quoted extension ++ " is not a Python source extension"
  | .namelessLibrary root => "library root " ++ root.toString ++ " has no directory name"
  | .unimportableLibrary name =>
      "library directory name " ++ Text.quoted name ++ " is not importable as a module name"
  | .libraryOutside library workspace =>
      "library root " ++ library.toString ++ " lies outside workspace root " ++ workspace.toString
  | .malformedPattern pattern error =>
      "invalid fixture pattern " ++ Text.quoted pattern ++ ": error parsing glob '" ++ pattern ++
        "': " ++ error.message

end ConfigError

namespace MergeConfig

/-- The path of the library directory; a relative one starts at the workspace root. -/
def libraryDirectory (config : MergeConfig) : Path :=
  config.libraryRoot.anchoredAt config.workspaceRoot

def workspaceLocation (config : MergeConfig) (tree : FileTree) : Location :=
  tree.normalize config.workspaceRoot

def libraryLocation (config : MergeConfig) (tree : FileTree) : Location :=
  tree.normalize config.libraryDirectory

/-- The name under which the library is imported; it has to be Unicode. -/
def libraryName? (config : MergeConfig) (tree : FileTree) : Option Text :=
  (config.libraryLocation tree).names.getLast?.filter (!·.contains Path.strayByte)

/-- The first fault of a list of patterns. -/
def checkPatterns : List String → Except ConfigError Unit
  | [] => .ok ()
  | pattern :: patterns =>
      match Pattern.parse pattern.toList with
      | .ok _ => checkPatterns patterns
      | .error error => .error (.malformedPattern pattern error)

/-- Whether a configuration can be used, or its first fault. -/
def validate (config : MergeConfig) (tree : FileTree) : Except ConfigError Unit :=
  let library := config.libraryLocation tree
  let workspace := config.workspaceLocation tree
  if config.extension.toList.head?.all (· == '.') then
    .error (.malformedExtension config.extension)
  else if Language.ofExtension config.extension ≠ .python then
    .error (.foreignExtension config.extension)
  else
    match config.libraryName? tree with
    | none => .error (.namelessLibrary config.libraryRoot)
    | some name =>
        if !Text.isImportable name then
          .error (.unimportableLibrary (String.ofList name))
        else if !workspace.names.isPrefixOf library.names then
          .error (.libraryOutside library workspace)
        else
          checkPatterns config.lenientFixtures

def describes (patterns : List String) (text : Text) : Bool :=
  patterns.any fun pattern =>
    match Pattern.parse pattern.toList with
    | .ok parts => Pattern.isMatch parts text
    | .error _ => false

/-- Whether the file at a location may have faults: a pattern describes its path below the
workspace root, or its name. -/
def isLenient (config : MergeConfig) (workspace location : Location) : Bool :=
  describes config.lenientFixtures (location.path.relativeTo workspace.path) ||
    location.names.getLast?.any (describes config.lenientFixtures)

end MergeConfig

namespace Language

def ofPath (path : Path) : Language :=
  match path.extension? with
  | some extension => ofExtension (String.ofList extension)
  | none => .unknown

end Language

end Inliner
