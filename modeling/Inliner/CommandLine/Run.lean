import Inliner.CommandLine.Arguments
import Inliner.CommandLine.Report
import Inliner.Config.File

/-!
Running commands on a file tree. A command either fails and prints nothing, or prints its result;
what it writes goes to one file, before it prints its result.
-/

namespace Inliner.CommandLine

/-! ## Logs and failures -/

inductive Severity where
  | info
  | warning
deriving DecidableEq, Repr, Inhabited

def Severity.name : Severity → String
  | .info => "INFO"
  | .warning => "WARN"

structure LogLine where
  severity : Severity
  text : String
deriving DecidableEq, Repr, Inhabited

namespace LogLine

def toString (line : LogLine) : String :=
  line.severity.name ++ " " ++ line.text

def info (text : String) : LogLine := ⟨.info, text⟩

def ofRemark (remark : Remark) : LogLine := ⟨.warning, remark.text⟩

end LogLine

structure Failure where
  message : String
  causes : List String
deriving DecidableEq, Repr, Inhabited

def indented (width : Nat) (text : String) : String :=
  ("\n" ++ String.ofList (List.replicate width ' ')).intercalate
    ((Text.splitAt '\n' text.toList).map String.ofList)

def numberedCauses (causes : List String) : String :=
  String.join <| causes.zipIdx.map fun (cause, number) =>
    String.ofList (padLeft 5 (toString number).toList) ++ ": " ++ indented 7 cause ++ "\n"

def Failure.toString (failure : Failure) : String :=
  "Error: " ++ failure.message ++ "\n" ++
    match failure.causes with
    | [] => ""
    | [cause] => "\nCaused by:\n    " ++ indented 4 cause ++ "\n"
    | causes => "\nCaused by:\n" ++ numberedCauses causes

namespace Failure

def ofMergeError (message : String) (error : MergeError) : Failure :=
  ⟨message, error.message :: error.cause?.toList⟩

def ofLoadError (error : LoadError) : Failure :=
  ⟨error.context, [error.cause]⟩

def ofSystemError (message : String) (path : Path) (error : SystemError) : Failure :=
  ⟨message ++ " " ++ path.toString, [error.message]⟩

/-- The failure to print a report in which some path is not Unicode. -/
def unprintable : Failure :=
  ⟨"path contains invalid UTF-8 characters", []⟩

end Failure

def printReport (report : Option Data.Value) : Except Failure Text :=
  match report with
  | some value => .ok (value.toJson ++ ['\n'])
  | none => .error .unprintable

/-- What comes of a command. -/
structure Result where
  tree : FileTree
  log : List LogLine
  printed : Except Failure Text
deriving Repr

/-! ## The configuration -/

namespace Invocation

/-- The configuration with the options of the command line in the place of its own. -/
def override (invocation : Invocation) (directory : Path) (config : MergeConfig) : MergeConfig :=
  { config with
    workspaceRoot := (invocation.workspaceRoot.map (·.anchoredAt directory)).getD
      config.workspaceRoot
    libraryRoot := (invocation.libraryRoot.map (·.anchoredAt directory)).getD config.libraryRoot
    lenientFixtures := config.lenientFixtures ++ invocation.lenient
    symbolPolicy := if invocation.exactSymbols then .exact else config.symbolPolicy }

def loadConfig (invocation : Invocation) (tree : FileTree) : Except Failure FileConfig :=
  let directory := tree.current.path
  match FileConfig.load tree invocation.config directory with
  | .error error => .error (.ofLoadError error)
  | .ok loaded =>
      let config := { loaded with merge := invocation.override directory loaded.merge }
      match config.merge.validate tree with
      | .error error => .error ⟨"Invalid merge configuration", [error.message]⟩
      | .ok () => .ok config

end Invocation

/-! ## The commands -/

/-- Writes a file, in directories that are made for it. The tree is given in any case. -/
def writeFile (tree : FileTree) (path : Path) (text : Text) : FileTree × Option Failure :=
  let parent := path.parent?.getD ⟨[]⟩
  match tree.makeDirectories parent.components.reverse with
  | (made, some error) => (made, some (.ofSystemError "Failed to create" parent error))
  | (made, none) =>
      match made.write path text with
      | .ok after => (after, none)
      | .error error => (made, some (.ofSystemError "Failed to write" path error))

def mergeLog (file : Path) (remarks : List Remark) (outcome : Outcome) : List LogLine :=
  remarks.map .ofRemark ++
    [.info ("Merged " ++ file.toString ++ " with " ++ toString outcome.modules.length ++
      " library module(s)")]

/-- Merges a file, and writes the result to another one if it is given. -/
def runMerge (tree : FileTree) (config : FileConfig) (json : Bool) (file : Path)
    (output : Option Path) : Result :=
  let source := file.anchoredAt tree.current.path
  match Inliner.merge config.merge tree source with
  | (remarks, .error error) =>
      ⟨tree, remarks.map .ofRemark,
        .error (.ofMergeError ("Failed to merge " ++ file.toString) error)⟩
  | (remarks, .ok outcome) =>
      let log := mergeLog source remarks outcome
      match output with
      | none =>
          ⟨tree, log, if json then printReport (mergeReport outcome) else .ok outcome.text⟩
      | some path =>
          match writeFile tree path outcome.text with
          | (after, some failure) => ⟨after, log, .error failure⟩
          | (after, none) =>
              ⟨after, log ++ [.info ("Wrote " ++ path.toString)],
                if json then printReport (mergeReport outcome) else .ok []⟩

/-- Merges the file of a problem into the output directory. -/
def runBundle (tree : FileTree) (config : FileConfig) (json : Bool) (contest problem : String) :
    Result :=
  let source := config.problemSource contest problem
  if !tree.isFile source then
    ⟨tree, [], .error ⟨"Problem source not found: " ++ source.toString, []⟩⟩
  else
    match Inliner.merge config.merge tree source with
    | (remarks, .error error) =>
        ⟨tree, remarks.map .ofRemark,
          .error (.ofMergeError ("Failed to merge " ++ source.toString) error)⟩
    | (remarks, .ok outcome) =>
        let log := mergeLog source remarks outcome
        let output := config.bundleOutput problem
        match writeFile tree output outcome.text with
        | (after, some failure) => ⟨after, log, .error failure⟩
        | (after, none) =>
            ⟨after,
              log ++ [.info ("Bundled " ++ contest ++ "/" ++ problem ++ " into " ++
                output.toString)],
              if json then
                printReport (bundleReport contest problem output outcome)
              else
                .ok (Path.shown output.text ++ ['\n'])⟩

def runImports (tree : FileTree) (config : FileConfig) (json : Bool) (file : Path) : Result :=
  let source := file.anchoredAt tree.current.path
  match inspectImports config.merge tree source with
  | .error error =>
      ⟨tree, [], .error (.ofMergeError ("Failed to inspect " ++ file.toString) error)⟩
  | .ok reports =>
      ⟨tree, [],
        if json then
          printReport (importsReport source reports)
        else
          .ok (importTable config.merge.workspaceRoot reports)⟩

def Invocation.runWith (invocation : Invocation) (tree : FileTree) (config : FileConfig) :
    Result :=
  match invocation.command with
  | .merge file output => runMerge tree config invocation.json file output
  | .bundle contest problem => runBundle tree config invocation.json contest problem
  | .imports file => runImports tree config invocation.json file

def Invocation.shownLog (invocation : Invocation) (log : List LogLine) : List LogLine :=
  if invocation.quiet then log.filter (·.severity = .warning) else log

/-- Runs a command line. -/
def Invocation.run (invocation : Invocation) (tree : FileTree) : Result :=
  match invocation.loadConfig tree with
  | .error failure => ⟨tree, [], .error failure⟩
  | .ok config =>
      let result := invocation.runWith tree config
      { result with log := invocation.shownLog result.log }

/-! ## The program -/

/-- What the program leaves behind. The exit code is zero for success, one for failure and two for
arguments that are not understood. -/
structure Exit where
  code : Nat
  printed : Text
  log : List LogLine
  failure : Option Failure
  tree : FileTree
deriving Repr

def versionLine : Text := "libmerge 0.1.1\n".toList

def run (arguments : List String) (tree : FileTree) : Exit :=
  match Invocation.ofArguments arguments with
  | .error .rejected => ⟨2, [], [], none, tree⟩
  | .error .version => ⟨0, versionLine, [], none, tree⟩
  | .ok invocation =>
      match invocation.run tree with
      | ⟨after, log, .ok printed⟩ => ⟨0, printed, log, none, after⟩
      | ⟨after, log, .error failure⟩ => ⟨1, [], log, some failure, after⟩

end Inliner.CommandLine
