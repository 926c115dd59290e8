import ExtractMethod.Toml.Value

/-! The lines of a document. -/
namespace ExtractMethod.Toml

/-- Arrays and inline tables may be nested that deep, and keys may have that many parts. -/
def depthLimit : Nat := 79

def isBare (c : Char) : Bool := c.isAlphanum || c = '_' || c = '-'

def simpleKey : Scan String :=
  basicString <|> literalString <|> String.ofList <$> Scan.spanSome isBare

/-- A key of one or more parts with points between them: the path and the last part. -/
def dottedKey : Scan (List String × String) := do
  let part := do
    blanks
    let name ← simpleKey
    blanks
    pure name
  let parts ← Scan.separated part (Scan.char '.')
  guard (parts.length ≤ depthLimit)
  match parts.getLast? with
  | some last => pure (parts.dropLast, last)
  | none => failure

/-- A key, the sign of equality, and a value, with blanks around them. -/
def pair (value : Scan Value) : Scan Pair := do
  let (path, key) ← dottedKey
  Scan.char '='
  blanks
  let value ← value
  blanks
  pure ⟨path, key, value⟩

/-- Values in brackets, over as many lines as needed. A comma may follow the last one. -/
def array (value : Scan Value) : Scan Value := do
  Scan.char '['
  let item := do
    gap
    let value ← value
    gap
    pure value
  let items := do
    let items ← Scan.separated item (Scan.char ',')
    let _ ← Scan.maybe (Scan.char ',')
    pure items
  let items := (← Scan.maybe items).getD []
  gap
  Scan.char ']'
  pure (.array items)

/-- Pairs in braces, on one line. -/
def inlineTable (value : Scan Value) : Scan Value := do
  Scan.char '\x7b'
  let pairs := (← Scan.maybe (Scan.separated (pair value) (Scan.char ','))).getD []
  blanks
  Scan.char '\x7d'
  match Members.insertAll? [] pairs with
  | some members => pure (.table .inline members)
  | none => failure

/-- A value without parts. A date is tried before a number, and a number with a fraction before
one without. -/
def scalar : Scan Value :=
  .text <$> text <|> .datetime <$> datetime <|> .real <$> real <|> .integer <$> integer <|>
    (do Scan.word "true"; pure (.boolean true)) <|> (do Scan.word "false"; pure (.boolean false))

/-- A value that has so many levels of arrays and tables in it at most. -/
def valueWithin : Nat → Scan Value
  | 0 => scalar
  | levels + 1 => scalar <|> array (valueWithin levels) <|> inlineTable (valueWithin levels)

/-- A line that says something. -/
inductive Line where
  | pair (pair : Pair)
  | table (path : List String) (key : String)
  | element (path : List String) (key : String)

/-- The header of an element of an array of tables. -/
def elementHeader : Scan Line := do
  Scan.word "[["
  let (path, key) ← dottedKey
  Scan.word "]]"
  pure (.element path key)

def tableHeader : Scan Line := do
  Scan.char '['
  let (path, key) ← dottedKey
  Scan.char ']'
  pure (.table path key)

/-- A line up to its end. Blank lines and comments say nothing. -/
def line : Scan (Option Line) := do
  blanks
  let found ← Scan.maybe
    (elementHeader <|> tableHeader <|> .pair <$> pair (valueWithin depthLimit))
  lineEnd
  pure found

/-- The lines of a document, after a byte order mark if there is one. -/
def lines : Scan (List Line) := do
  let _ ← Scan.maybe (Scan.char '\uFEFF')
  let found ← Scan.many line
  Scan.atEnd
  pure (found.filterMap id)

end ExtractMethod.Toml
