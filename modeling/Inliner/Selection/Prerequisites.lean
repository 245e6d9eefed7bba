import Inliner.Selection.Choice

/-!
What has to run before a segment. A definition needs what its header reads. Module-level code
needs every definition it may call, directly or through other definitions, and the module-level
code before it that any of these read.
-/

namespace Inliner.ParsedSource

/-- Whether a segment is taken along: a chosen definition or module-level code. -/
def isSelected (source : ParsedSource) (chosen : List Nat) (index : Nat) : Bool :=
  index ∈ chosen || source.isGlobal index

def bindsOneOf (source : ParsedSource) (names : List String) (index : Nat) : Bool :=
  (source.bindsOf index).any (· ∈ names)

def calledBy (source : ParsedSource) (chosen : List Nat) (index : Nat) : List Nat :=
  source.indices.filter fun target =>
    target ∈ chosen && source.bindsOneOf (source.referencesOf index) target

/-- The chosen definitions that a segment may call, directly or through other definitions. -/
def reachedFrom (source : ParsedSource) (chosen : List Nat) (index : Nat) : List Nat :=
  reachWithin (source.calledBy chosen) source.segments.length (source.calledBy chosen index)

/-- The segments that have to run before a segment, in ascending order. -/
def prerequisites (source : ParsedSource) (chosen : List Nat) (index : Nat) : List Nat :=
  if source.isDefinition index then
    source.indices.filter fun target =>
      target ≠ index && source.isSelected chosen target &&
        source.bindsOneOf (source.eagerReferencesOf index) target
  else
    let reached := source.reachedFrom chosen index
    let names := source.referencesOf index ++ reached.flatMap source.referencesOf
    source.indices.filter fun target =>
      target ∈ reached ||
        (target < index && source.isGlobal target && source.bindsOneOf names target)

/-- The module-level code right before a segment of module-level code. -/
def previousGlobal? (source : ParsedSource) (index : Nat) : Option Nat :=
  if source.isGlobal index then (source.globals.filter (· < index)).getLast? else none

/-- What is placed before a segment, in order: for module-level code, the module-level code
before it; then the prerequisites. -/
def placedBefore (source : ParsedSource) (chosen : List Nat) (index : Nat) : List Nat :=
  (source.previousGlobal? index).toList ++ source.prerequisites chosen index

end Inliner.ParsedSource
