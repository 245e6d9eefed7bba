/-!
Placement of numbered items behind what they need. Items are visited depth first: what an item
needs is placed before it, unless that is itself being visited.
-/

namespace Inliner

/-- Items being visited, and items that have been placed, in order. -/
structure Placement where
  visiting : List Nat
  emitted : List Nat
deriving DecidableEq, Repr

namespace Placement

def empty : Placement := ⟨[], []⟩

/-- Places an item behind what it needs. Items that have been placed, and items being visited,
are left alone. The depth bounds the nesting of visits. -/
def visit (needs : Nat → List Nat) : Nat → Placement → Nat → Placement
  | 0, placement, _ => placement
  | depth + 1, placement, item =>
      if item ∈ placement.emitted ∨ item ∈ placement.visiting then
        placement
      else
        let entered := { placement with visiting := item :: placement.visiting }
        let served := (needs item).foldl (visit needs depth) entered
        ⟨served.visiting.erase item, served.emitted ++ [item]⟩

def visitAll (needs : Nat → List Nat) (depth : Nat) (items : List Nat) : Placement :=
  items.foldl (visit needs depth) empty

end Placement

end Inliner
