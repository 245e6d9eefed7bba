import Inliner.Text.Blank

/-!
Module paths: the dotted names after `import` and `from`, with the dots that make them relative.
-/

namespace Inliner

/-- A reference to a module: the number of leading dots, none for an absolute path, and the names
between the dots that follow. -/
structure ModulePath where
  level : Nat
  segments : List String
deriving DecidableEq, Repr, Inhabited

namespace ModulePath

/-- The names between the dots of a text, without the white space around them; empty ones are
left out. -/
def splitSegments (dotted : Text) : List String :=
  (((Text.splitAt '.' dotted).map Text.trim).filter (!·.isEmpty)).map String.ofList

def relative (level : Nat) (dotted : Text) : ModulePath :=
  ⟨level, splitSegments dotted⟩

def absolute (dotted : Text) : ModulePath :=
  relative 0 dotted

def isRelative (path : ModulePath) : Bool :=
  0 < path.level

def head? (path : ModulePath) : Option String :=
  path.segments.head?

def dotted (path : ModulePath) : Text :=
  Text.joinWith ['.'] (path.segments.map String.toList)

/-- The path as it is written: its leading dots, then its segments. -/
def display (path : ModulePath) : Text :=
  List.replicate path.level '.' ++ path.dotted

end ModulePath

end Inliner
