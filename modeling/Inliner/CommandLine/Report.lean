import Inliner.Data.Json
import Inliner.Merge.Outcome

/-!
What commands print: reports as JSON, and imports as a table. JSON is text, so there is no report
with a path that is not Unicode; a table shows such a path with replacement characters.
-/

namespace Inliner.CommandLine

open Data (Value)

/-! ## Reports as values -/

/-- A path as a value, if it is Unicode. -/
def pathValue (path : Path) : Option Value :=
  if path.isUnicode then some (.string path.toString) else none

def optionValue : Option String → Value
  | some text => .string text
  | none => .null

def namesValue : ImportedNames → Value
  | .wildcard => .table [("kind", .string "wildcard")]
  | .named names =>
      .table
        [("kind", .string "named"),
          ("names", .array (names.map fun name =>
            .table [("name", .string name.name), ("alias", optionValue name.newName)]))]
  | .module newName => .table [("kind", .string "module"), ("alias", optionValue newName)]

def resolutionValue : Resolution → Option Value
  | .library location => do
      let path ← pathValue location.path
      return .table [("kind", .string "library"), ("path", path)]
  | .foreign => some (.table [("kind", .string "foreign")])
  | .missing reason =>
      some (.table [("kind", .string "missing"), ("reason", .string reason.message)])

def importValue (report : ImportReport) : Option Value := do
  let resolution ← resolutionValue report.resolution
  return .table
    [("line", .integer report.line), ("module", .string report.module),
      ("names", namesValue report.names), ("resolution", resolution)]

def importsReport (file : Path) (reports : List ImportReport) : Option Value := do
  let path ← pathValue file
  let imports ← reports.mapM importValue
  return .table [("file", path), ("imports", .array imports)]

def mergeReport (outcome : Outcome) : Option Value := do
  let main ← pathValue outcome.main.path
  let modules ← outcome.modules.mapM pathValue
  return .table
    [("text", .string (String.ofList outcome.text)), ("main", main), ("modules", .array modules),
      ("notes", .array (outcome.notes.map .string))]

def bundleReport (contest problem : String) (output : Path) (outcome : Outcome) :
    Option Value := do
  let source ← pathValue outcome.main.path
  let written ← pathValue output
  let modules ← outcome.modules.mapM pathValue
  return .table
    [("contest", .string contest), ("problem", .string problem), ("source", source),
      ("output", written), ("modules", .array modules),
      ("notes", .array (outcome.notes.map .string))]

/-! ## The table of imports -/

def padRight (width : Nat) (text : Text) : Text :=
  text ++ List.replicate (width - text.length) ' '

def padLeft (width : Nat) (text : Text) : Text :=
  List.replicate (width - text.length) ' ' ++ text

def nameColumn (name : ImportedName) : Text :=
  match name.newName with
  | some newName => (name.name ++ " as " ++ newName).toList
  | none => name.name.toList

def namesColumn : ImportedNames → Text
  | .wildcard => ['*']
  | .named names => Text.joinWith [',', ' '] (names.map nameColumn)
  | .module (some newName) => ("(module as " ++ newName ++ ")").toList
  | .module none => "(module)".toList

def resolutionColumn (root : Path) : Resolution → Text
  | .library location => "library ".toList ++ location.path.relativeTo root
  | .foreign => "foreign (kept)".toList
  | .missing reason => ("missing: " ++ reason.message).toList

def moduleWidth (reports : List ImportReport) : Nat :=
  reports.foldl (fun width report => max width (Text.byteSize report.module.toList)) 0

def importLine (root : Path) (width : Nat) (report : ImportReport) : Text :=
  padLeft 4 (toString report.line).toList ++ [' ', ' '] ++
    padRight width report.module.toList ++ [' ', ' '] ++
    padRight 12 (namesColumn report.names) ++ "  -> ".toList ++
    resolutionColumn root report.resolution ++ ['\n']

/-- The table of imports. Module files are shown below a root. -/
def importTable (root : Path) (reports : List ImportReport) : Text :=
  if reports.isEmpty then
    "no top-level imports\n".toList
  else
    reports.flatMap (importLine root (moduleWidth reports))

end Inliner.CommandLine
