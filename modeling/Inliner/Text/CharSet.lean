/-!
Sets of characters given by ranges of code points.
-/

namespace Inliner.Text

/-- A set of characters, as inclusive ranges of code points. -/
structure CharSet where
  ranges : List (Nat × Nat)

namespace CharSet

def contains (set : CharSet) (character : Char) : Bool :=
  set.ranges.any fun range =>
    range.1 ≤ character.toNat && character.toNat ≤ range.2

end CharSet

end Inliner.Text
