import Inliner.Selection.Closure
import Inliner.Source.Parsed

/-!
Which definitions of a module a named import asks for, and which it needs besides.
-/

namespace Inliner

/-- How much of a module a named import takes along: all that the definitions asked for depend on,
or nothing. -/
inductive SymbolPolicy where
  | withDependencies
  | exact
deriving DecidableEq, Repr, Inhabited

namespace ParsedSource

def indices (source : ParsedSource) : List Nat :=
  List.range source.segments.length

def bindsOf (source : ParsedSource) (index : Nat) : List String :=
  (source.statementsOf index).flatMap (·.binds)

def referencesOf (source : ParsedSource) (index : Nat) : List String :=
  (source.statementsOf index).flatMap (·.references)

def eagerReferencesOf (source : ParsedSource) (index : Nat) : List String :=
  (source.statementsOf index).flatMap (·.eagerReferences)

def isDefinition (source : ParsedSource) (index : Nat) : Bool :=
  (source.definitionOf? index).isSome

/-- Whether a segment holds nothing but imports and code that is no definition. -/
def isGlobal (source : ParsedSource) (index : Nat) : Bool :=
  !source.isDefinition index && (source.statementsOf index).all fun statement =>
    statement.kind == .other || statement.kind == .importing

def globals (source : ParsedSource) : List Nat :=
  source.indices.filter source.isGlobal

/-- The segment that defines a name; the last one, if there are several. -/
def definitionIndex? (source : ParsedSource) (name : String) : Option Nat :=
  source.indices.reverse.find? fun index => source.definitionOf? index == some name

def dependenciesOf (source : ParsedSource) (index : Nat) : List Nat :=
  (source.referencesOf index).filterMap source.definitionIndex?

/-- The segments that define some names, each once, in the order of the names. -/
def requested (source : ParsedSource) (names : List String) : List Nat :=
  (names.filterMap source.definitionIndex?).eraseDups

/-- The names that a module neither defines nor binds otherwise. -/
def missing (source : ParsedSource) (names : List String) : List String :=
  names.filter fun name =>
    (source.definitionIndex? name).isNone && name ∉ source.boundNames

def chosen (source : ParsedSource) (names : List String) (policy : SymbolPolicy) : List Nat :=
  match policy with
  | .exact => source.requested names
  | .withDependencies =>
      reachWithin source.dependenciesOf source.segments.length
        (source.requested names ++ source.globals.flatMap source.dependenciesOf)

end ParsedSource

end Inliner
