import ExtractMethod.Decimal.Binary

/-! The decimal with the fewest digits among those that are read back as a given number in double
precision. -/
namespace ExtractMethod.Binary

/-- Compares `a · 10 ^ i` with `b · 2 ^ j`. -/
def compareScaled (a : Nat) (i : Int) (b : Nat) (j : Int) : Ordering :=
  compare (a * Nat.pow 10 i.toNat * Nat.pow 2 (-j).toNat)
    (b * Nat.pow 2 j.toNat * Nat.pow 10 (-i).toNat)

/-- Below a power of two the numbers lie closer together than above it. -/
def isNarrowBelow (x : Binary) : Bool := x.mantissa = leastMantissa && x.exponent ≠ minExponent

/-- The decimal is nearer to the number than to its neighbours. At equal distance the even mantissa
counts as nearer. -/
def isReadBackFrom (x : Binary) (d : Decimal) : Bool :=
  let low := compareScaled d.digits d.exponent
    (4 * x.mantissa - if x.isNarrowBelow then 1 else 2) (x.exponent - 2)
  let high := compareScaled d.digits d.exponent (4 * x.mantissa + 2) (x.exponent - 2)
  let isEven := x.mantissa % 2 = 0
  (low = .gt ∨ isEven ∧ low = .eq) && (high = .lt ∨ isEven ∧ high = .eq)

/-- The greatest multiple of `10 ^ exponent` that does not exceed the number. -/
def floorOn (x : Binary) (exponent : Int) : Nat :=
  x.mantissa * Nat.pow 2 x.exponent.toNat * Nat.pow 10 (-exponent).toNat /
    (Nat.pow 2 (-x.exponent).toNat * Nat.pow 10 exponent.toNat)

/-- The multiple of `10 ^ exponent` nearest to the number among those that are read back. Of two at
equal distance it is the greater. -/
def hit? (x : Binary) (exponent : Int) : Option Decimal :=
  let below : Decimal := ⟨x.floorOn exponent, exponent⟩
  let above : Decimal := ⟨x.floorOn exponent + 1, exponent⟩
  let isAboveNearer :=
    compareScaled (below.digits + above.digits) exponent (2 * x.mantissa) x.exponent ≠ .gt
  match x.isReadBackFrom below, x.isReadBackFrom above with
  | true, true => some (if isAboveNearer then above else below)
  | true, false => some below
  | false, true => some above
  | false, false => none

/-- The exponents of the last digits that can be needed, the greatest first. -/
def gridExponents : List Int := (List.range 650).map fun (i : Nat) => 309 - (i : Int)

/-- The exact value, with all its digits. -/
def exact (x : Binary) : Decimal :=
  if 0 ≤ x.exponent then ⟨x.mantissa * Nat.pow 2 x.exponent.toNat, 0⟩
  else ⟨x.mantissa * Nat.pow 5 (-x.exponent).toNat, x.exponent⟩

/-- The decimal with the fewest digits that is read back as the number. -/
def shortest (x : Binary) : Decimal :=
  if x.mantissa = 0 then ⟨0, 0⟩ else (gridExponents.findSome? x.hit?).getD x.exact

end ExtractMethod.Binary
