import Inliner.Config.Decode
import Inliner.Data.Toml.Document

/-!
Configuration files: where contests and outputs lie, and how files are merged.
-/

namespace Inliner

open Data (Value)

structure FileConfig where
  contestDirectory : Path := .ofString "contest"
  outputDirectory : Path := .ofString ".temp"
  merge : MergeConfig := {}
deriving DecidableEq, Repr, Inhabited

inductive TomlError where
  | malformed
  | decode (error : DecodeError)
deriving DecidableEq, Repr

/-- Why a configuration cannot be loaded. -/
inductive LoadError where
  | unreadable (path : Path) (error : SystemError)
  | invalid (path : Path) (error : TomlError)
deriving DecidableEq, Repr

namespace LoadError

def context : LoadError → String
  | .unreadable path _ => "Failed to read config " ++ path.toString
  | .invalid path _ => "Invalid config " ++ path.toString

def cause : LoadError → String
  | .unreadable _ error => error.message
  | .invalid _ _ => "TOML parse error"

end LoadError

namespace FileConfig

def fileName : String := "libmerge.toml"

def fieldNames : List String := ["contest_dir", "output_dir", "merge"]

def setField (config : FileConfig) (name : String) (value : Value) :
    Except DecodeError FileConfig :=
  match name with
  | "contest_dir" => do return { config with contestDirectory := ← Decode.path value }
  | "output_dir" => do return { config with outputDirectory := ← Decode.path value }
  | "merge" => do return { config with merge := ← Decode.mergeConfig .toml value }
  | _ => .error (.unknownField name fieldNames)

/-- The configuration that a text describes. -/
def ofToml (text : Text) : Except TomlError FileConfig :=
  match Data.Toml.parse? text with
  | none => .error .malformed
  | some fields =>
      match fields.foldlM (fun config (name, value) => setField config name value) {} with
      | .ok config => .ok config
      | .error error => .error (.decode error)

def ofFile (tree : FileTree) (path : Path) : Except LoadError FileConfig :=
  match tree.read path with
  | .error error => .error (.unreadable path error)
  | .ok text =>
      match ofToml text with
      | .ok config => .ok config
      | .error error => .error (.invalid path error)

/-- A configuration whose relative paths start at a base. A relative library directory starts at
the workspace root and stays relative. -/
def anchored (config : FileConfig) (base : Path) : FileConfig :=
  { contestDirectory := config.contestDirectory.anchoredAt base
    outputDirectory := config.outputDirectory.anchoredAt base
    merge := { config.merge with workspaceRoot := config.merge.workspaceRoot.anchoredAt base } }

/-- Loads the configuration from a file that is named, or else from the usual file in a
directory, or else takes the defaults. Relative paths in it start at the directory of the file. -/
def load (tree : FileTree) (named : Option Path) (directory : Path) :
    Except LoadError FileConfig :=
  match named with
  | some name =>
      let path := name.anchoredAt directory
      match ofFile tree path with
      | .ok config => .ok (config.anchored (path.parent?.getD directory))
      | .error error => .error error
  | none =>
      let path := directory.join (.ofString fileName)
      if tree.isFile path then
        match ofFile tree path with
        | .ok config => .ok (config.anchored directory)
        | .error error => .error error
      else
        .ok (({} : FileConfig).anchored directory)

def problemFile (config : FileConfig) (problem : String) : Path :=
  .ofString (problem ++ "." ++ config.merge.extension)

def problemSource (config : FileConfig) (contest problem : String) : Path :=
  ((config.contestDirectory.join (.ofString contest)).join (.ofString problem)).join
    (config.problemFile problem)

def bundleOutput (config : FileConfig) (problem : String) : Path :=
  config.outputDirectory.join (config.problemFile problem)

end FileConfig

end Inliner
