import Inliner.Merge.Output
import Inliner.Merge.Walk
import Inliner.Text.BlankLines

/-!
Merging a file: the library modules it needs are written before it, below the line that names
the program to run it and the language features that any of the files asks for.
-/

namespace Inliner

/-- What comes of a merge: the merged text, the library modules that are part of it in the order in
which they come up, and the faults that were tolerated. -/
structure Outcome where
  text : Text
  main : Location
  modules : List Path
  notes : List String
deriving DecidableEq, Repr

namespace Registry

/-- The language features that the modules ask for, each once. -/
def futures (registry : Registry) : List String :=
  (registry.modules.flatMap (·.futures)).eraseDups

end Registry

def futureLine (features : List String) : Text :=
  if features.isEmpty then
    []
  else
    "from __future__ import ".toList ++
      Text.joinWith [',', ' '] (features.map (·.toList)) ++ ['\n', '\n']

/-- What stands above the modules in a merged text. -/
def header (main : Text) (features : List String) : Text :=
  ((shebang? main).map (· ++ ['\n'])).getD [] ++ futureLine features

namespace Setting

def output (setting : Setting) (registry : Registry) (events : List Event) : Output :=
  events.foldl
    (fun output event =>
      match event with
      | .remark _ => output
      | .serve id request =>
          match registry.module? id with
          | some module => output.serve setting.config.symbolPolicy module request
          | none => output)
    .empty

def missingRemarks (setting : Setting) (module : Module) (request : Request) : List Remark :=
  (module.missing request setting.config.symbolPolicy).map fun name =>
    .warning ("`" ++ name ++ "` is not defined at module level of " ++
      setting.display module.path)

def remarks (setting : Setting) (registry : Registry) (events : List Event) : List Remark :=
  events.flatMap fun event =>
    match event with
    | .remark remark => [remark]
    | .serve id request =>
        match registry.module? id with
        | some module => setting.missingRemarks module request
        | none => []

/-- The outcome of a walk that came to its end. -/
def outcome (setting : Setting) (main : Location) (mainText : Text) (walk : Walk) : Outcome :=
  let output := setting.output walk.registry walk.events
  { text := Text.normalizeBlankLines
      (header mainText walk.registry.futures ++ output.text)
    main := main
    modules := output.libraryModules.filterMap fun id =>
      (walk.registry.module? id).map (·.path)
    notes := (setting.remarks walk.registry walk.events).filterMap Remark.note? }

def verbatimOutcome (main : Location) (mainText : Text) (remarks : List Remark) : Outcome where
  text := mainText
  main := main
  modules := []
  notes := remarks.filterMap Remark.note?

/-- Merges the file at a location, and tells what is reported on the way. -/
def mergeAt (setting : Setting) (main : Location) : List Remark × Except MergeError Outcome :=
  match setting.load 0 main true with
  | (remarks, .error error) => (remarks, .error error)
  | (remarks, .ok module) =>
      if module.isVerbatim then
        (remarks, .ok (verbatimOutcome main module.text remarks))
      else
        match ((Walk.empty setting).push module remarks .main).run setting with
        | (walk, some error) => (setting.remarks walk.registry walk.events, .error error)
        | (walk, none) =>
            (setting.remarks walk.registry walk.events,
              .ok (setting.outcome main module.text walk))

end Setting

/-- Merges the file that a path leads to, and tells what is reported on the way. -/
def merge (config : MergeConfig) (tree : FileTree) (file : Path) :
    List Remark × Except MergeError Outcome :=
  match config.validate tree with
  | .error error => ([], .error (.invalidConfig error))
  | .ok () => Setting.mergeAt ⟨config, tree⟩ (tree.normalize file)

/-- Tells where the imports of the file that a path leads to lead, without merging. -/
def inspectImports (config : MergeConfig) (tree : FileTree) (file : Path) :
    Except MergeError (List ImportReport) :=
  match config.validate tree with
  | .error error => .error (.invalidConfig error)
  | .ok () =>
      let location := tree.normalize file
      if Language.ofPath location.path ≠ .python then
        .error (.unsupportedFile location)
      else
        match tree.readAt location with
        | .error error => .error (.unreadable location error)
        | .ok text =>
            match ParsedSource.parse text with
            | .error error => .error (.parse location error)
            | .ok source =>
                .ok ((Resolver.ofConfig config tree).report tree location.path source)

end Inliner
