import ExtractMethod.Decimal.Shortest
import ExtractMethod.Toml.Text

namespace ExtractMethod.Toml

/-- A number in double precision. -/
inductive Real where
  | finite (isNegative : Bool) (magnitude : Binary)
  | infinite (isNegative : Bool)
  | nan
deriving DecidableEq

/-- The fewest digits that are read back as the number. -/
def Real.render : Real → String
  | .finite isNegative magnitude =>
    (if isNegative then "-" else "") ++ magnitude.shortest.positional
  | .infinite isNegative => if isNegative then "-inf" else "inf"
  | .nan => "NaN"

/-- Digits, between which underscores may stand. -/
def digits (isDigit : Char → Bool) : Scan (List Char) := do
  let first ← Scan.oneOf isDigit
  pure (first :: (← Scan.many (Scan.oneOf isDigit <|> do Scan.char '_'; Scan.oneOf isDigit)))

/-- A sign, and whether it is a minus. -/
def sign : Scan Bool := do
  pure ((← Scan.maybe (Scan.oneOf fun c => c = '+' || c = '-')) = some '-')

/-- Decimal digits without a zero in front, or a single zero. -/
def wholeDigits : Scan (List Char) := do
  match ← Scan.peek? with
  | some '0' => pure [← Scan.oneOf (· = '0')]
  | _ => digits Char.isDigit

/-- The first integer that does not have 64 bits. -/
def integerBound : Int := 9223372036854775808

def inRange (n : Int) : Scan Int := do
  guard (-integerBound ≤ n && n < integerBound)
  pure n

/-- An integer in another base, after a zero and the letter of the base. -/
def basedInteger (letter : Char) (base : Nat) (isDigit : Char → Bool) : Scan Int := do
  Scan.char '0'
  Scan.char letter
  inRange (numeral base (← digits isDigit))

def decimalInteger : Scan Int := do
  let isNegative ← sign
  let n : Int := numeral 10 (← wholeDigits)
  inRange (if isNegative then -n else n)

def integer : Scan Int :=
  basedInteger 'x' 16 isHexDigit <|>
    basedInteger 'o' 8 (fun c => '0' ≤ c && c ≤ '7') <|>
    basedInteger 'b' 2 (fun c => c = '0' || c = '1') <|>
    decimalInteger

def fraction : Scan (List Char) := do
  Scan.char '.'
  digits Char.isDigit

/-- An exponent of ten. -/
def tenExponent : Scan Int := do
  let _ ← Scan.oneOf fun c => c = 'e' || c = 'E'
  let isNegative ← sign
  let n : Int := numeral 10 (← digits Char.isDigit)
  pure (if isNegative then -n else n)

/-- Digits with a fraction or an exponent. -/
def finiteReal : Scan Real := do
  let isNegative ← sign
  let whole ← wholeDigits
  let places ← Scan.maybe fraction
  let exponent ← Scan.maybe tenExponent
  guard (places.isSome || exponent.isSome)
  let places := places.getD []
  match Binary.nearest? ⟨numeral 10 (whole ++ places), exponent.getD 0 - places.length⟩ with
  | some magnitude => pure (.finite isNegative magnitude)
  | none => if isNegative then pure (.infinite true) else failure

def specialReal : Scan Real := do
  let isNegative ← sign
  (do Scan.word "inf"; pure (.infinite isNegative)) <|> (do Scan.word "nan"; pure .nan)

def real : Scan Real := finiteReal <|> specialReal

end ExtractMethod.Toml
