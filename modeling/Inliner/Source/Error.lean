/-!
Errors about source text.
-/

namespace Inliner

/-- Why a text cannot be analysed. Lines and columns count from one. -/
inductive SyntaxError where
  | parse (line column : Nat)
  | unsupportedLanguage (name : String)
deriving DecidableEq, Repr

namespace SyntaxError

def message : SyntaxError → String
  | .parse line column =>
      "Parse error at line " ++ toString line ++ ", column " ++ toString column
  | .unsupportedLanguage name => "Unsupported language: " ++ name

def line? : SyntaxError → Option Nat
  | .parse line _ => some line
  | .unsupportedLanguage _ => none

end SyntaxError

end Inliner
