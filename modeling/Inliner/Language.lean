import Inliner.Source.Error

/-!
The language of a file, told by its extension.
-/

namespace Inliner

/-- The language of a file. -/
inductive Language where
  | python
  | unknown
deriving DecidableEq, Repr, Inhabited

namespace Language

/-- The language of files with an extension, whose case does not matter. Both extensions are of
plain letters, so lowering those is enough. -/
def ofExtension (extension : String) : Language :=
  if extension.toList.map Char.toLower ∈ ["py".toList, "pyw".toList] then .python else .unknown

def name : Language → String
  | .python => "python"
  | .unknown => "unknown"

def grammar (language : Language) : Except SyntaxError Unit :=
  match language with
  | .python => .ok ()
  | .unknown => .error (.unsupportedLanguage language.name)

end Language

end Inliner
