import Inliner.Config.Merge
import Inliner.Source.Parsed

/-!
Where imports lead. A relative import starts at the directory of the importing file and may not
leave the workspace; the name of the library in it starts over at the library directory. An
absolute import that starts with the name of the library leads below the library directory. Any
other absolute import leads to a module of the library or beside the importing file if there is
one, and is foreign otherwise.
-/

namespace Inliner

/-- Why an import that should lead to a module file leads nowhere. -/
inductive MissingReason where
  | beyondRoot
  | aboveWorkspace (root : Location)
  | namesNoModule
  | namesLibrary
  | noFile (path : Path)
deriving DecidableEq, Repr

namespace MissingReason

def message : MissingReason → String
  | .beyondRoot => "relative import beyond the filesystem root"
  | .aboveWorkspace root =>
      "relative import ascends above the workspace root " ++ root.toString
  | .namesNoModule => "package-relative import names no module file"
  | .namesLibrary => "the library package itself is not a module file"
  | .noFile path => "no module file at " ++ path.toString

end MissingReason

/-- Where an import leads: to a module file, out of the library, so that it is left alone, or
nowhere though it should lead to a module file. -/
inductive Resolution where
  | library (location : Location)
  | foreign
  | missing (reason : MissingReason)
deriving DecidableEq, Repr

/-- What decides where imports lead. -/
structure Resolver where
  workspaceRoot : Location
  libraryRoot : Location
  libraryName : Option Text
  extension : Text
deriving DecidableEq, Repr

namespace Resolver

def ofConfig (config : MergeConfig) (tree : FileTree) : Resolver where
  workspaceRoot := config.workspaceLocation tree
  libraryRoot := config.libraryLocation tree
  libraryName := config.libraryName? tree
  extension := config.extension.toList

/-- The path of a module below a base. -/
def moduleFile (resolver : Resolver) (base : Path) (segments : List String) : Path :=
  (segments.foldl (fun path segment => path.join (.ofString segment)) base).withExtension
    resolver.extension

/-- Where a path leads that should be a module file. -/
def requireFile (tree : FileTree) (path : Path) : Resolution :=
  if tree.isFile path then .library (tree.normalize path) else .missing (.noFile path)

def underLibrary (resolver : Resolver) (tree : FileTree) (segments : List String) : Resolution :=
  if segments.isEmpty then
    .missing .namesLibrary
  else
    requireFile tree (resolver.moduleFile resolver.libraryRoot.path segments)

/-- The directory some levels up; `none` beyond the root. -/
def ascend : Nat → Path → Option Path
  | 0, path => some path
  | levels + 1, path => path.parent?.bind (ascend levels)

def isLibraryName (resolver : Resolver) (segment : String) : Bool :=
  resolver.libraryName == some segment.toList

def resolveRelative (resolver : Resolver) (tree : FileTree) (directory : Path)
    (module : ModulePath) : Resolution :=
  match ascend (module.level - 1) directory with
  | none => .missing .beyondRoot
  | some base =>
      if !base.isWithin resolver.workspaceRoot.path then
        .missing (.aboveWorkspace resolver.workspaceRoot)
      else if module.segments.isEmpty then
        .missing .namesNoModule
      else
        match module.segments.dropWhile (!resolver.isLibraryName ·) with
        | _ :: rest => resolver.underLibrary tree rest
        | [] => requireFile tree (resolver.moduleFile base module.segments)

/-- Where an absolute import that does not start with the name of the library leads. -/
def resolveProbed (resolver : Resolver) (tree : FileTree) (directory : Path)
    (segments : List String) : Resolution :=
  let inLibrary := resolver.moduleFile resolver.libraryRoot.path segments
  let beside := resolver.moduleFile directory segments
  if tree.isFile inLibrary then
    .library (tree.normalize inLibrary)
  else if tree.isFile beside then
    .library (tree.normalize beside)
  else
    .foreign

/-- Where an import of a module in a file leads. -/
def resolve (resolver : Resolver) (tree : FileTree) (importer : Path) (module : ModulePath) :
    Resolution :=
  let directory := importer.parent?.getD resolver.workspaceRoot.path
  if module.isRelative then
    resolver.resolveRelative tree directory module
  else
    match module.segments with
    | head :: rest =>
        if resolver.isLibraryName head then
          resolver.underLibrary tree rest
        else
          resolver.resolveProbed tree directory module.segments
    | [] => resolver.resolveProbed tree directory module.segments

end Resolver

structure ImportReport where
  line : Nat
  module : String
  names : ImportedNames
  resolution : Resolution
deriving DecidableEq, Repr

namespace Resolver

def report (resolver : Resolver) (tree : FileTree) (importer : Path) (source : ParsedSource) :
    List ImportReport :=
  source.imports.map fun declaration =>
    { line := declaration.line
      module := String.ofList declaration.module.display
      names := declaration.names
      resolution := resolver.resolve tree importer declaration.module }

end Resolver

end Inliner
