import ExtractMethod.Text.PartitionPoint

namespace ExtractMethod.Text

/-- A set of code points as ascending, disjoint ranges with both ends included. -/
structure CharSet where
  ranges : Array (Nat × Nat)

/-- Looks only at the first range that does not end before the character. -/
def CharSet.contains (set : CharSet) (c : Char) : Bool :=
  match set.ranges[partitionPoint (·.2 < c.toNat) set.ranges]? with
  | some (first, _) => first ≤ c.toNat
  | none => false

end ExtractMethod.Text
