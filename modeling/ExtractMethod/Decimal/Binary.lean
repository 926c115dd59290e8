import ExtractMethod.Decimal.Basic

namespace ExtractMethod

/-- A finite number without sign in double precision: `mantissa · 2 ^ exponent`, with a mantissa
of at most 53 bits. -/
structure Binary where
  mantissa : Nat
  exponent : Int
deriving DecidableEq, Inhabited

namespace Binary

def zero : Binary := ⟨0, -1074⟩

/-- The smallest exponent, which the numbers near zero share. -/
def minExponent : Int := -1074

def maxExponent : Int := 971

/-- The smallest mantissa of 53 bits. -/
def leastMantissa : Nat := 4503599627370496

/-- The quotient rounded to the nearest whole number, a half to the even one. -/
def roundQuotient (num den : Nat) : Nat :=
  let quotient := num / den
  let twice := 2 * (num % den)
  if twice < den then quotient
  else if den < twice then quotient + 1
  else if quotient % 2 = 0 then quotient else quotient + 1

/-- The number `num / den` rounded to 53 bits; nothing if it is too large. -/
def nearestQuotient? (num den : Nat) : Option Binary :=
  let scaled (round : Nat → Nat → Nat) (exponent : Int) : Nat :=
    round (num * Nat.pow 2 (-exponent).toNat) (den * Nat.pow 2 exponent.toNat)
  let low : Int := max ((num.log2 : Int) - den.log2 - 53) minExponent
  let exponent := if 2 * leastMantissa ≤ scaled (· / ·) low then low + 1 else low
  let mantissa := scaled roundQuotient exponent
  let rounded : Binary :=
    if mantissa = 2 * leastMantissa then ⟨leastMantissa, exponent + 1⟩ else ⟨mantissa, exponent⟩
  if rounded.exponent ≤ maxExponent then some rounded else none

/-- The number in double precision that is nearest to a decimal, the one with an even mantissa if
there are two; nothing if the decimal is too large. -/
def nearest? (d : Decimal) : Option Binary :=
  let order : Int := (Nat.toDigits 10 d.digits).length + d.exponent
  if d.digits = 0 || order < -330 then some zero
  else if 310 < order then none
  else nearestQuotient? (d.digits * Nat.pow 10 d.exponent.toNat) (Nat.pow 10 (-d.exponent).toNat)

end Binary

end ExtractMethod
