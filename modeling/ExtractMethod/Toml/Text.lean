import ExtractMethod.Toml.Scan

/-! Strings: basic ones with escapes and literal ones without, on one line or on several. -/
namespace ExtractMethod.Toml

def isHexDigit (c : Char) : Bool := c.isDigit || ('a' ≤ c && c ≤ 'f') || ('A' ≤ c && c ≤ 'F')

/-- The value of a digit in any base up to sixteen. -/
def digitValue (c : Char) : Nat :=
  if c.isDigit then c.toNat - '0'.toNat
  else if 'a' ≤ c then c.toNat - 'a'.toNat + 10
  else c.toNat - 'A'.toNat + 10

/-- The number that digits stand for. -/
def numeral (base : Nat) (digits : List Char) : Nat :=
  digits.foldl (fun n c => n * base + digitValue c) 0

/-- The character of that number. Surrogates and numbers that are too large have none. -/
def character? (n : Nat) : Option Char :=
  if n.isValidChar then some (Char.ofNat n) else none

/-- As many hexadecimal digits as given, as the character of that number. -/
def codePoint (digits : Nat) : Scan Char := fun input =>
  let found := input.take digits
  if found.length = digits && found.all isHexDigit then
    (character? (numeral 16 found)).map fun c => (c, input.drop digits)
  else none

def apostrophe : Char := Char.ofNat 0x27

/-- A character after a backslash, as the one it stands for. -/
def escaped : Scan Char := do
  match ← Scan.oneOf fun _ => true with
  | 'b' => pure '\x08'
  | 'f' => pure '\x0c'
  | 'n' => pure '\n'
  | 'r' => pure '\r'
  | 't' => pure '\t'
  | '"' => pure '"'
  | '\\' => pure '\\'
  | 'u' => codePoint 4
  | 'U' => codePoint 8
  | _ => failure

def escape : Scan (List Char) := do
  Scan.char '\\'
  pure [← escaped]

/-- A backslash at the end of a line, with all blanks and line breaks after it. -/
def foldedBreak : Scan (List Char) := do
  Scan.char '\\'
  blanks
  lineBreak
  let _ ← Scan.many (lineBreak <|> do let _ ← Scan.spanSome isBlank)
  pure []

/-- A line break in a string counts as a line feed. -/
def keptBreak : Scan (List Char) := do
  lineBreak
  pure ['\n']

def isBasic (c : Char) : Bool := isPlain c && c ≠ '"' && c ≠ '\\'

def isLiteral (c : Char) : Bool := isPlain c && c ≠ apostrophe

/-- One or two quotes, which do not end a string of several lines. -/
def loneQuotes (quote : Char) : Scan (List Char) := do
  let quotes ← Scan.spanSome (· = quote)
  guard (quotes.length ≤ 2)
  pure quotes

/-- The end of a string of several lines. Up to two quotes may stand before the last three. -/
def closingQuotes (quote : Char) : Scan (List Char) := do
  let quotes ← Scan.spanSome (· = quote)
  guard (3 ≤ quotes.length && quotes.length ≤ 5)
  pure (quotes.drop 3)

/-- A string between triple quotes. A line break right after the first three is left out. -/
def multiline (quote : Char) (piece : Scan (List Char)) : Scan (List Char) := do
  Scan.word (String.ofList [quote, quote, quote])
  let _ ← Scan.maybe lineBreak
  let pieces ← Scan.many (piece <|> keptBreak <|> loneQuotes quote)
  pure (pieces.flatten ++ (← closingQuotes quote))

/-- A string between single quotes of a kind. -/
def singleLine (quote : Char) (piece : Scan (List Char)) : Scan (List Char) := do
  Scan.char quote
  let pieces ← Scan.many piece
  Scan.char quote
  pure pieces.flatten

def basicString : Scan String :=
  String.ofList <$> singleLine '"' (Scan.spanSome isBasic <|> escape)

def literalString : Scan String :=
  String.ofList <$> singleLine apostrophe (Scan.spanSome isLiteral)

def text : Scan String :=
  String.ofList <$> multiline '"' (Scan.spanSome isBasic <|> foldedBreak <|> escape) <|>
    String.ofList <$> multiline apostrophe (Scan.spanSome isLiteral) <|>
    basicString <|> literalString

end ExtractMethod.Toml
