import Inliner.Selection.Placement
import Inliner.Selection.Prerequisites
import Inliner.Source.Render

/-!
Selection: the segments that a named import takes from a module, in an order in which they can
run. Module-level code that needs no definition comes first; then the definitions in the order
in which they are asked for, the rest of the module-level code, and further definitions, each
behind what it needs.
-/

namespace Inliner

/-- The outcome of a selection. -/
structure Selection where
  segments : List Nat
  missing : List String
deriving DecidableEq, Repr

namespace ParsedSource

/-- The module-level code at the start of a module that needs no chosen definition. -/
def leadingGlobals (source : ParsedSource) (chosen : List Nat) : List Nat :=
  source.globals.takeWhile fun index =>
    (source.prerequisites chosen index).all (· ∉ chosen)

def furtherDefinitions (source : ParsedSource) (requested chosen : List Nat) : List Nat :=
  source.indices.filter fun index => index ∈ chosen && index ∉ requested

def visitOrder (source : ParsedSource) (requested chosen : List Nat) : List Nat :=
  source.leadingGlobals chosen ++ requested ++ source.globals ++
    source.furtherDefinitions requested chosen

/-- The segments that an import of some names takes from a module. -/
def select (source : ParsedSource) (names : List String) (policy : SymbolPolicy) : Selection :=
  let requested := source.requested names
  let chosen := source.chosen names policy
  let placement := Placement.visitAll (source.placedBefore chosen) (source.segments.length + 1)
    (source.visitOrder requested chosen)
  ⟨placement.emitted, source.missing names⟩

end ParsedSource

/-- The text of the segments that an import of some names takes from a module text, and the
names that the module does not have. Without names, the text stays as it is and is not even
analysed. -/
def extractSymbols (text : Text) (names : Option (List String)) (policy : SymbolPolicy) :
    Except SyntaxError (Text × List String) :=
  match names with
  | none => .ok (text, [])
  | some names =>
      match ParsedSource.parse text with
      | .error error => .error error
      | .ok source =>
          let selection := source.select names policy
          .ok (selection.segments.flatMap (source.renderAt fun _ => .keep), selection.missing)

def missingSymbolWarning (name : String) : String :=
  "Symbol `" ++ name ++ "` is not defined at module level"

end Inliner
