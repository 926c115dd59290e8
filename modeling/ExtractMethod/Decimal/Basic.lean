namespace ExtractMethod

/-- The number `digits · 10 ^ exponent`. -/
structure Decimal where
  digits : Nat
  exponent : Int
deriving DecidableEq, Inhabited

namespace Decimal

/-- Moves the zeros at the end of the digits to the exponent. -/
def stripZeros (digits : Nat) (exponent : Int) : Decimal :=
  if h : digits ≠ 0 ∧ digits % 10 = 0 then stripZeros (digits / 10) (exponent + 1)
  else ⟨digits, exponent⟩
termination_by digits
decreasing_by omega

def zeros (n : Nat) : String := String.ofList (List.replicate n '0')

/-- Puts the point before the last `places` digits, with at least one digit before it. -/
def pointed (digits : List Char) (places : Nat) : String :=
  let padded := List.replicate (places + 1 - digits.length) '0' ++ digits
  String.ofList (padded.take (padded.length - places)) ++ "." ++
    String.ofList (padded.drop (padded.length - places))

/-- The positional form. It has a point even if the number is whole. -/
def positional (d : Decimal) : String :=
  let stripped := stripZeros d.digits d.exponent
  let digits := Nat.toDigits 10 stripped.digits
  if 0 ≤ stripped.exponent then
    String.ofList digits ++ zeros stripped.exponent.toNat ++ ".0"
  else pointed digits (-stripped.exponent).toNat

end Decimal

end ExtractMethod
