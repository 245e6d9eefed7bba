import Inliner.Merge.Error
import Inliner.Merge.Module

/-!
Loading a file: reading and analysing it, following its imports, and deciding what happens to its
statements. Imports that lead to module files are dropped, since the modules are written instead.
-/

namespace Inliner

inductive Remark where
  | note (text : String)
  | warning (text : String)
deriving DecidableEq, Repr

namespace Remark

def text : Remark → String
  | .note text | .warning text => text

/-- The words of a remark that tells a tolerated fault. -/
def note? : Remark → Option String
  | .note text => some text
  | .warning _ => none

end Remark

/-- What a merge works with. -/
structure Setting where
  config : MergeConfig
  tree : FileTree
deriving Repr

namespace Setting

def resolver (setting : Setting) : Resolver :=
  .ofConfig setting.config setting.tree

def workspaceRoot (setting : Setting) : Location :=
  setting.config.workspaceLocation setting.tree

/-- A path as messages show it: below the workspace root if it is there. -/
def display (setting : Setting) (path : Path) : String :=
  String.ofList (path.relativeTo setting.workspaceRoot.path)

def isLenient (setting : Setting) (location : Location) : Bool :=
  setting.config.isLenient setting.workspaceRoot location

end Setting

def ImportDeclaration.request (declaration : ImportDeclaration) : Request :=
  match declaration.names with
  | .wildcard | .module _ => .whole
  | .named names => .names names

namespace Setting

/-- The remarks on an import that leads to a module file: one that binds the module itself does
not work after the merge. -/
def importRemarks (setting : Setting) (location : Location) (declaration : ImportDeclaration) :
    List Remark :=
  match declaration.names with
  | .wildcard | .named _ => []
  | .module _ =>
      [.warning (setting.display location.path ++ ":" ++ toString declaration.line ++
        ": `import " ++ String.ofList declaration.module.display ++
        "` inlines the whole module; qualified references to it are not rewritten")]

/-- The dependency that an import of a file amounts to, if it leads to a module file, with the
remarks on it; or why the import makes the merge fail. -/
def dependency (setting : Setting) (location : Location) (lenient : Bool)
    (declaration : ImportDeclaration) : Except MergeError (Option Dependency × List Remark) :=
  let module := String.ofList declaration.module.display
  match setting.resolver.resolve setting.tree location.path declaration.module with
  | .library target =>
      .ok (some ⟨target, declaration.request, module, declaration.line⟩,
        setting.importRemarks location declaration)
  | .foreign => .ok (none, [])
  | .missing reason =>
      if lenient then
        .ok (none, [.note (setting.display location.path ++ ":" ++ toString declaration.line ++
          ": kept unresolved import " ++ module ++ " (" ++ reason.message ++ ")")])
      else
        .error (.missingLibrary module location declaration.line reason)

def dependencies (setting : Setting) (location : Location) (lenient : Bool) :
    List ImportDeclaration →
      List Remark × Except MergeError (List (ImportDeclaration × Option Dependency))
  | [] => ([], .ok [])
  | declaration :: declarations =>
      match setting.dependency location lenient declaration with
      | .error error => ([], .error error)
      | .ok (found, remarks) =>
          match setting.dependencies location lenient declarations with
          | (more, .error error) => (remarks ++ more, .error error)
          | (more, .ok rest) => (remarks ++ more, .ok ((declaration, found) :: rest))

end Setting

/-- The statement in the place of an import statement some of whose clauses lead to module
files. -/
def keptImport (clauses : List Text) : Text :=
  "import ".toList ++ Text.joinWith [',', ' '] clauses

def importEdit (imports : List (ImportDeclaration × Option Dependency)) : Edit :=
  let kept := (imports.filter (·.2.isNone)).map (·.1.text)
  if kept.isEmpty then
    .drop
  else if kept.length < imports.length then
    .replace (keptImport kept)
  else
    .keep

def importEdits (imports : List (ImportDeclaration × Option Dependency)) : List (Nat × Edit) :=
  (imports.map (·.1.statement)).eraseDups.map fun statement =>
    (statement, importEdit (imports.filter (·.1.statement == statement)))

namespace MergeConfig

/-- What happens to a statement that is no import of modules. -/
def statementEdit (config : MergeConfig) (isMain : Bool) (statement : Statement) : Option Edit :=
  match statement.kind with
  | .future _ => if config.hoistFutureImports then some .drop else none
  | .mainGuard => if !isMain && config.stripMainGuard then some .drop else none
  | _ => none

def statementEdits (config : MergeConfig) (isMain : Bool) (source : ParsedSource) :
    List (Nat × Edit) :=
  source.statements.zipIdx.filterMap fun (statement, index) =>
    (config.statementEdit isMain statement).map (index, ·)

/-- The language features that a source imports and that move to the top. -/
def futures (config : MergeConfig) (source : ParsedSource) : List String :=
  if config.hoistFutureImports then
    source.statements.flatMap fun statement =>
      match statement.kind with
      | .future names => names
      | _ => []
  else
    []

end MergeConfig

namespace Setting

/-- The module of an analysed file, with the remarks on its imports. -/
def plan (setting : Setting) (id : Nat) (location : Location) (isMain lenient : Bool)
    (source : ParsedSource) : List Remark × Except MergeError Module :=
  match setting.dependencies location lenient source.imports with
  | (remarks, .error error) => (remarks, .error error)
  | (remarks, .ok imports) =>
      (remarks, .ok
        { id := id
          path := location.path
          text := source.text
          parsed := some source
          dependencies := imports.filterMap (·.2)
          edits := importEdits imports ++ setting.config.statementEdits isMain source
          futures := setting.config.futures source
          isMain := isMain })

def verbatimModule (id : Nat) (location : Location) (isMain : Bool) (text : Text) : Module where
  id := id
  path := location.path
  text := text
  parsed := none
  dependencies := []
  edits := []
  futures := []
  isMain := isMain

/-- Loads a file. A file that may have faults is taken as it is if it breaks the grammar. -/
def load (setting : Setting) (id : Nat) (location : Location) (isMain : Bool) :
    List Remark × Except MergeError Module :=
  if Language.ofPath location.path ≠ .python then
    ([], .error (.unsupportedFile location))
  else
    match setting.tree.readAt location with
    | .error error => ([], .error (.unreadable location error))
    | .ok text =>
        match ParsedSource.parse text with
        | .ok source => setting.plan id location isMain (setting.isLenient location) source
        | .error error =>
            if setting.isLenient location then
              ([.note (setting.display location.path ++ ": " ++ error.message ++
                "; kept original text")], .ok (verbatimModule id location isMain text))
            else
              ([], .error (.parse location error))

end Setting

end Inliner
