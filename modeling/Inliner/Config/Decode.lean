import Inliner.Config.Merge
import Inliner.Data.Decimal
import Inliner.Data.Value

/-!
Configurations read from values. Fields are looked at in the order of the value, missing ones
keep their defaults, and the first fault counts.
-/

namespace Inliner

open Data (Value)

inductive DataFormat where
  | json
  | toml
deriving DecidableEq, Repr

/-- Why a value is no configuration. -/
inductive DecodeError where
  | unknownField (name : String) (expected : List String)
  | unknownVariant (name : String) (expected : List String)
  | invalidType (found expected : String)
  | invalidValue (found expected : String)
  | invalidLength (length : Nat)
  | noVariant
deriving DecidableEq, Repr

namespace DecodeError

def listed (words : List String) : String :=
  ", ".intercalate (words.map fun word => "`" ++ word ++ "`")

def message : DecodeError → String
  | .unknownField name expected =>
      "unknown field `" ++ name ++ "`, expected one of " ++ listed expected
  | .unknownVariant name expected =>
      "unknown variant `" ++ name ++ "`, expected " ++
        " or ".intercalate (expected.map fun word => "`" ++ word ++ "`")
  | .invalidType found expected => "invalid type: " ++ found ++ ", expected " ++ expected
  | .invalidValue found expected => "invalid value: " ++ found ++ ", expected " ++ expected
  | .invalidLength length =>
      "invalid length " ++ toString length ++ ", expected fewer elements in array"
  | .noVariant => "wanted string or table"

end DecodeError

namespace Decode

/-- A value as messages show it. -/
def found : Value → String
  | .null => "null"
  | .boolean value => "boolean `" ++ (if value then "true" else "false") ++ "`"
  | .integer value => "integer `" ++ toString value ++ "`"
  | .float value => "floating point `" ++ Data.floatText value ++ "`"
  | .string value => "string " ++ Text.quoted value
  | .array _ => "sequence"
  | .table _ => "map"

/-- The fault of a value of another type. -/
def mismatch {α : Type} (expected : String) (value : Value) : Except DecodeError α :=
  .error (.invalidType (found value) expected)

def string : Value → Except DecodeError String
  | .string value => .ok value
  | value => mismatch "a string" value

def path : Value → Except DecodeError Path
  | .string value => .ok (.ofString value)
  | value => mismatch "path string" value

def boolean : Value → Except DecodeError Bool
  | .boolean value => .ok value
  | value => mismatch "a boolean" value

def strings : Value → Except DecodeError (List String)
  | .array items => items.mapM string
  | value => mismatch "a sequence" value

def policyNames : List String := ["with-dependencies", "exact"]

def policyNamed (name : String) : Except DecodeError SymbolPolicy :=
  if name = "with-dependencies" then
    .ok .withDependencies
  else if name = "exact" then
    .ok .exact
  else
    .error (.unknownVariant name policyNames)

/-- A symbol policy: its name, or in JSON also a table with its name as the only key. -/
def policy (format : DataFormat) : Value → Except DecodeError SymbolPolicy
  | .string value => policyNamed value
  | value =>
      match format, value with
      | .toml, _ => .error .noVariant
      | .json, .table [(name, .null)] => policyNamed name
      | .json, .table [(name, inner)] => do
          let _ ← policyNamed name
          mismatch "unit" inner
      | .json, .table _ => .error (.invalidValue "map" "map with a single key")
      | .json, other => mismatch "string or map" other

def mergeFields : List String :=
  ["workspace_root", "library_root", "extension", "symbol_policy", "strip_main_guard",
    "hoist_future_imports", "lenient_fixtures"]

def setMergeField (format : DataFormat) (config : MergeConfig) (name : String) (value : Value) :
    Except DecodeError MergeConfig :=
  match name with
  | "workspace_root" => do return { config with workspaceRoot := ← path value }
  | "library_root" => do return { config with libraryRoot := ← path value }
  | "extension" => do return { config with extension := ← string value }
  | "symbol_policy" => do return { config with symbolPolicy := ← policy format value }
  | "strip_main_guard" => do return { config with stripMainGuard := ← boolean value }
  | "hoist_future_imports" => do return { config with hoistFutureImports := ← boolean value }
  | "lenient_fixtures" => do return { config with lenientFixtures := ← strings value }
  | _ => .error (.unknownField name mergeFields)

/-- A merge configuration: a table of fields, or a sequence of their values in order. -/
def mergeConfig (format : DataFormat) : Value → Except DecodeError MergeConfig
  | .table fields =>
      fields.foldlM (fun config (name, value) => setMergeField format config name value) {}
  | .array items => do
      let config ← (mergeFields.zip items).foldlM
        (fun config (name, value) => setMergeField format config name value) {}
      if format = .json ∧ mergeFields.length < items.length then
        .error (.invalidLength items.length)
      else
        return config
  | value => mismatch "struct MergeConfig" value

end Decode

end Inliner
