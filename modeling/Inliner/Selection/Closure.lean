/-!
What can be reached from some numbers by following successors.
-/

namespace Inliner

/-- The numbers reached from those in `known` by steps of `next`, in at most `rounds` rounds;
each round adds the successors that are not known yet. -/
def reachWithin (next : Nat → List Nat) : Nat → List Nat → List Nat
  | 0, known => known
  | rounds + 1, known =>
      match ((known.flatMap next).filter (· ∉ known)).eraseDups with
      | [] => known
      | fresh => reachWithin next rounds (known ++ fresh)

end Inliner
