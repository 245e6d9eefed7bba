import Inliner.Merge.Resolution

/-!
Why a merge fails.
-/

namespace Inliner

/-- Why a merge fails. -/
inductive MergeError where
  | missingLibrary (module : String) (importer : Location) (line : Nat) (reason : MissingReason)
  | parse (location : Location) (error : SyntaxError)
  | unreadable (location : Location) (error : SystemError)
  | unsupportedFile (location : Location)
  | invalidConfig (error : ConfigError)
deriving DecidableEq, Repr

namespace MergeError

def message : MergeError → String
  | .missingLibrary module importer line reason =>
      "Library module not found: " ++ module ++ " (imported from " ++ importer.toString ++ ":" ++
        toString line ++ "): " ++ reason.message
  | .parse location error => "Syntax error in " ++ location.toString ++ ": " ++ error.message
  | .unreadable location error =>
      "Failed to read " ++ location.toString ++ ": " ++ error.message
  | .unsupportedFile location => "Unsupported source file: " ++ location.toString
  | .invalidConfig error => "Invalid configuration: " ++ error.message

/-- The error behind the error, in words. -/
def cause? : MergeError → Option String
  | .parse _ error => some error.message
  | .unreadable _ error => some error.message
  | .missingLibrary .. | .unsupportedFile _ | .invalidConfig _ => none

def missingModule? : MergeError → Option String
  | .missingLibrary module .. => some module
  | _ => none

end MergeError

end Inliner
