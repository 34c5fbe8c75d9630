/-!
# Sets of characters

A set of characters is given by ranges of code points.
-/
namespace RelationalAlgebra.Text

/-- A set of characters: ranges of code points, each with its first and its last member, in
ascending order. -/
structure CharSet where
  ranges : List (Nat × Nat)

def CharSet.contains (s : CharSet) (c : Char) : Bool :=
  s.ranges.any fun r => r.1 ≤ c.toNat && c.toNat ≤ r.2

end RelationalAlgebra.Text
